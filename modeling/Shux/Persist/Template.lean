/-
# Saving and restoring a session

A session is saved as a template: its name, the titles of its windows, and for each window a
list of panes, every pane after the first with the split it came from. Restoring reads the
template and lowers it to a batch of operations, in which every pane after the first is split
off the pane before it.

The TOML text of a template is left out: reading is taken to undo writing, with the defaults
of the fields that are not written. A ratio is written rounded, as an `f64`, and read as an
`f32`.
-/

import Shux.Core.Batch

namespace Shux.Persist

variable {R : Type}

/-- Ratios in a template: what a rounded ratio reads back as, and the ratio of a pane that has
none. -/
class TemplateRatio (R : Type) where
  roundRatio : R → R
  defaultRatio : R

structure ExportPane (R : Type) where
  command : List Str
  cwd : Str
  direction : Option Direction
  ratio : Option R
  deriving DecidableEq

structure ExportWindow (R : Type) where
  title : Str
  panes : List (ExportPane R)
  deriving DecidableEq

structure ExportSession where
  name : Str
  cwd : Str
  deriving DecidableEq

structure ExportTemplate (R : Type) where
  session : ExportSession
  windows : List (ExportWindow R)
  deriving DecidableEq

inductive ExportError where
  | sessionNotFound (id : SessionId)
  | windowNotFound (id : WindowId)
  | paneNotFound (id : PaneId)
  deriving DecidableEq

section Save

variable [TemplateRatio R]

def exportPane (pane : Pane) (split : Option (Direction × R)) : ExportPane R where
  command := pane.command
  cwd := pane.cwd.toStringLossy
  direction := split.map Prod.fst
  ratio := split.map fun split => TemplateRatio.roundRatio split.2

/-- The panes of a tree from left to right. The first pane of a split's second half carries the
split, the first pane of the tree what the tree itself came from. -/
def flattenLayout (snap : SessionGraphSnapshot R) :
    LayoutNode R → Option (Direction × R) → Except ExportError (List (ExportPane R))
  | .leaf pane, splitFromParent =>
    match snap.panes.get pane with
    | some pane => .ok [exportPane pane splitFromParent]
    | none => .error (.paneNotFound pane)
  | .node dir ratio a b, splitFromParent => do
    let left ← flattenLayout snap a splitFromParent
    let right ← flattenLayout snap b (some (dir, ratio))
    pure (left ++ right)

def exportWindow (snap : SessionGraphSnapshot R) (wid : WindowId) :
    Except ExportError (ExportWindow R) :=
  match snap.windows.get wid with
  | none => .error (.windowNotFound wid)
  | some window => do
    let panes ← flattenLayout snap window.layout.tree none
    pure ⟨window.title, panes⟩

def exportSessionTemplate (snap : SessionGraphSnapshot R) (sessionId : SessionId) :
    Except ExportError (ExportTemplate R) :=
  match snap.sessions.get sessionId with
  | none => .error (.sessionNotFound sessionId)
  | some session => do
    let firstPane := (session.windows.filterMap snap.windows.get).findSome? fun w =>
      snap.panes.get w.activePane
    let cwd := (firstPane.map fun p => p.cwd.toStringLossy).getD ".".toList
    let windows ← session.windows.mapM (exportWindow snap)
    pure ⟨⟨session.name, cwd⟩, windows⟩

end Save

structure PaneTpl (R : Type) where
  command : List Str
  cwd : Option Str
  direction : Option Direction
  ratio : R

structure WindowTpl (R : Type) where
  title : Str
  cwd : Option Str
  panes : List (PaneTpl R)

structure SessionTpl where
  name : Option Str
  cwd : Option Str

structure Template (R : Type) where
  session : SessionTpl
  windows : List (WindowTpl R)

inductive TemplateError where
  | noWindows
  | noPanes (windowIndex : Nat) (title : Str)
  deriving DecidableEq

section ReadBack

variable [TemplateRatio R]

def ExportPane.readBack (pane : ExportPane R) : PaneTpl R :=
  ⟨pane.command, some pane.cwd, pane.direction, pane.ratio.getD TemplateRatio.defaultRatio⟩

def ExportWindow.readBack (window : ExportWindow R) : WindowTpl R :=
  ⟨window.title, none, window.panes.map ExportPane.readBack⟩

/-- What a saved template reads as. -/
def ExportTemplate.readBack (template : ExportTemplate R) : Template R :=
  ⟨⟨some template.session.name, some template.session.cwd⟩,
    template.windows.map ExportWindow.readBack⟩

end ReadBack

/-- The part of the environment that lowering reads. -/
structure Env where
  home : Option PathBuf
  currentDir : PathBuf

/-- `Path::join`: an absolute path replaces, any other is appended. -/
def joinPath (path tail : PathBuf) : PathBuf :=
  match tail with
  | .char '/' :: _ => tail
  | _ =>
    if path.isEmpty ∨ path.getLast? = some (.char '/') then path ++ tail
    else path ++ .char '/' :: tail

/-- Expand `~` to the home directory. -/
def expandString (env : Env) (s : Str) : PathBuf :=
  match s, env.home with
  | '~' :: '/' :: stripped, some home => joinPath home (.ofStr stripped)
  | ['~'], some home => home
  | _, _ => .ofStr s

def expandCwd (env : Env) : Option Str → PathBuf
  | some s => expandString env s
  | none => env.currentDir

/-- Each pane split off the one before it. -/
def lowerSplits (env : Env) (priorPaneOp opIndex : Nat) : List (PaneTpl R) → List (Op R)
  | [] => []
  | pane :: rest =>
    .splitPane (.backRef priorPaneOp) (pane.direction.getD .vertical) pane.ratio pane.command
        (pane.cwd.map (expandString env)) ::
      lowerSplits env opIndex (opIndex + 1) rest

/-- The windows after the first: a window with its first pane, then the splits. -/
def lowerWindows (env : Env) (sessionCwd : PathBuf) (opIndex : Nat) :
    List (WindowTpl R) → List (Op R)
  | [] => []
  | window :: rest =>
    match window.panes with
    | [] => lowerWindows env sessionCwd opIndex rest
    | first :: more =>
      let windowCwd := (window.cwd.map (expandString env)).getD sessionCwd
      .createWindow (.backRef 0) window.title
          ((first.cwd.map (expandString env)).or (some windowCwd)) first.command ::
        lowerSplits env opIndex (opIndex + 1) more ++
        lowerWindows env sessionCwd (opIndex + 1 + more.length) rest

/-- The first window without panes. -/
def findEmpty (index : Nat) : List (WindowTpl R) → Option TemplateError
  | [] => none
  | window :: rest =>
    if window.panes.isEmpty then some (.noPanes index window.title) else findEmpty (index + 1) rest

/-- Lower a template to a batch. The first window is folded into the session's own. -/
def lower (env : Env) (tpl : Template R) : Except TemplateError (List (Op R)) :=
  match tpl.windows with
  | [] => .error .noWindows
  | firstWindow :: rest =>
    match findEmpty 0 tpl.windows with
    | some e => .error e
    | none =>
      let sessionCwd := expandCwd env tpl.session.cwd
      match firstWindow.panes with
      | [] => .error (.noPanes 0 firstWindow.title)
      | firstPane :: more =>
        let fallback := (firstWindow.cwd.map (expandString env)).getD sessionCwd
        let cwd := (firstPane.cwd.map (expandString env)).getD fallback
        .ok (.createSession tpl.session.name cwd firstPane.command (some firstWindow.title) ::
          lowerSplits env 0 1 more ++ lowerWindows env sessionCwd (1 + more.length) rest)

end Shux.Persist
