/-
# Loops that follow the live config

Four loops act on the config and then wait for its next replacement. The client makes its next
listener before it reads the config. The loop that runs the segments of the status bar and the one
that rebuilds the snapshot rasterizer read first, and make their listener after their tasks are
spawned and after the fonts are loaded. A replacement that is over in between is missed.

The attach loop also listens before it reads, but it resizes the panes before that for the first
time, and again for frames of its client. It resizes for a replacement only if the style differs
from the one that it compared with last, so a style that it compared with and did not resize for is
missed.
-/

import Shux.Core.Text
import Shux.Lib.Notify

namespace Shux.Reload

open Notify

/-- The part of the config that the snapshot rasterizer is built from. -/
structure SnapshotFontKey where
  primary : Option Str
  fallbacks : Option (List Str)
  deriving DecidableEq

/-- What the loops read of a config: the segments of the status bar, the fonts, the border style
and the keys, which are the prefix and the keybindings. -/
structure Config (S K : Type) where
  segments : List S
  fonts : SnapshotFontKey
  borderStyle : Str
  keys : K
  deriving DecidableEq

variable {S K : Type} [DecidableEq K]

/-- Where the loop of the segment runners is. The segments are those of the running group. -/
inductive Runners (S : Type) where
  | reading
  | spawned (segments : List S)
  | parked (segments : List S) (listener : Listener)
  | stopping (segments : List S)
  deriving DecidableEq

/-- Where the rasterizer's loop is. A build that succeeds is followed by the start of the task the
first time, and by the loop from then on. -/
inductive RasterPc where
  | registering
  | building (key : SnapshotFontKey) (first : Bool)
  | starting
  | listening
  | parked (listener : Listener)
  | woken
  deriving DecidableEq

/-- The rasterizer and the task that rebuilds it. -/
structure Raster where
  pc : RasterPc
  /-- The fonts of the rasterizer in use, none for the bundled chain. -/
  built : Option SnapshotFontKey
  lastFontKey : Option SnapshotFontKey
  /-- The fonts of the config that was read last, and those whose build failed. -/
  seen : Option SnapshotFontKey
  refused : List SnapshotFontKey
  deriving DecidableEq

/-- Where an attach loop is. While it is parked it also handles frames. -/
inductive BorderPc where
  | starting
  | resized
  | armed (listener : Listener)
  | parked (listener : Listener)
  | rearming
  | rearmed (listener : Listener)
  | resizing (listener : Listener)
  deriving DecidableEq

/-- An attach loop. -/
structure Border where
  pc : BorderPc
  /-- The border style that the panes were last resized for. -/
  acted : Str
  lastBorderStyle : Str
  deriving DecidableEq

/-- Where a client is, with the keys that its bindings were built from. -/
inductive Client (K : Type) where
  | starting (keys : K)
  | armed (keys : K) (listener : Listener)
  | parked (keys : K) (listener : Listener)
  | rearming (keys : K)
  deriving DecidableEq

/-- The config and the loops that follow it. -/
structure World (S K : Type) where
  config : Cell (Config S K)
  runners : Runners S
  raster : Raster
  border : Border
  client : Client K

/-- The daemon and the client start. -/
def World.start (config : Config S K) (keys : K) : World S K where
  config := ⟨config, 0, 0⟩
  runners := .reading
  raster := ⟨.registering, none, none, none, []⟩
  border := ⟨.starting, [], []⟩
  client := .starting keys

section Loops

variable (cell : Cell (Config S K))

inductive Runners.Step : Runners S → Runners S → Prop
  | read : Step .reading (.spawned cell.value.segments)
  | listen (segments : List S) : Step (.spawned segments) (.parked segments cell.notified)
  | wake (segments : List S) (l : Listener) (woken : l.Woken cell) :
      Step (.parked segments l) (.stopping segments)
  | stop (segments : List S) : Step (.stopping segments) .reading

/-- Compare the fonts of the current config with those handled last. -/
def Raster.check (r : Raster) (key : SnapshotFontKey) : Raster :=
  if some key = r.lastFontKey then { r with seen := some key, pc := .listening }
  else { r with seen := some key, pc := .building key false }

/-- What follows a build. -/
def RasterPc.after (first : Bool) : RasterPc := if first then .starting else .listening

inductive Raster.Step : Raster → Raster → Prop
  | first (r : Raster) (pc : r.pc = .registering) :
      Step r { r with
        seen := some cell.value.fonts
        lastFontKey := some cell.value.fonts
        pc := .building cell.value.fonts true }
  | built (r : Raster) (key : SnapshotFontKey) (first : Bool) (pc : r.pc = .building key first) :
      Step r { r with built := some key, lastFontKey := some key, pc := .after first }
  | refused (r : Raster) (key : SnapshotFontKey) (first : Bool) (pc : r.pc = .building key first) :
      Step r { r with refused := key :: r.refused, pc := .after first }
  | bootstrap (r : Raster) (pc : r.pc = .starting) : Step r (r.check cell.value.fonts)
  | listen (r : Raster) (pc : r.pc = .listening) : Step r { r with pc := .parked cell.notified }
  | wake (r : Raster) (l : Listener) (pc : r.pc = .parked l) (woken : l.Woken cell) :
      Step r { r with pc := .woken }
  | read (r : Raster) (pc : r.pc = .woken) : Step r (r.check cell.value.fonts)

/-- Resizing the panes reads the config again. -/
def Border.applyResizeToWindow (b : Border) (pc : BorderPc) : Border :=
  { b with acted := cell.value.borderStyle, pc := pc }

inductive Border.Step : Border → Border → Prop
  | attach (b : Border) (pc : b.pc = .starting) : Step b (b.applyResizeToWindow cell .resized)
  | arm (b : Border) (pc : b.pc = .resized) : Step b { b with pc := .armed cell.notified }
  | first (b : Border) (l : Listener) (pc : b.pc = .armed l) :
      Step b { b with lastBorderStyle := cell.value.borderStyle, pc := .parked l }
  | frame (b : Border) (l : Listener) (pc : b.pc = .parked l) :
      Step b (b.applyResizeToWindow cell (.parked l))
  | wake (b : Border) (l : Listener) (pc : b.pc = .parked l) (woken : l.Woken cell) :
      Step b { b with pc := .rearming }
  | rearm (b : Border) (pc : b.pc = .rearming) : Step b { b with pc := .rearmed cell.notified }
  | same (b : Border) (l : Listener) (pc : b.pc = .rearmed l)
      (same : cell.value.borderStyle = b.lastBorderStyle) : Step b { b with pc := .parked l }
  | changed (b : Border) (l : Listener) (pc : b.pc = .rearmed l)
      (changed : cell.value.borderStyle ≠ b.lastBorderStyle) :
      Step b { b with lastBorderStyle := cell.value.borderStyle, pc := .resizing l }
  | resized (b : Border) (l : Listener) (pc : b.pc = .resizing l) :
      Step b (b.applyResizeToWindow cell (.parked l))

/-- The keys of the live config when they differ and build a registry, else the keys there are. -/
def rebind (valid : K → Bool) (live : K) (keys : K) : K :=
  if live = keys then keys else if valid live then live else keys

inductive Client.Step (valid : K → Bool) : Client K → Client K → Prop
  | arm (keys : K) : Step valid (.starting keys) (.armed keys cell.notified)
  | rebind (keys : K) (l : Listener) :
      Step valid (.armed keys l) (.parked (Reload.rebind valid cell.value.keys keys) l)
  | wake (keys : K) (l : Listener) (woken : l.Woken cell) :
      Step valid (.parked keys l) (.rearming keys)
  | rearm (keys : K) : Step valid (.rearming keys) (.armed keys cell.notified)

end Loops

/-- A step of a replacement or of one of the loops. -/
inductive Step (valid : K → Bool) (w : World S K) : World S K → Prop
  | store (config : Config S K) : Step valid w { w with config := w.config.store config }
  | notify (underWay : 0 < w.config.pending) : Step valid w { w with config := w.config.wake }
  | runners {next : Runners S} (step : w.runners.Step w.config next) :
      Step valid w { w with runners := next }
  | raster {next : Raster} (step : w.raster.Step w.config next) :
      Step valid w { w with raster := next }
  | border {next : Border} (step : w.border.Step w.config next) :
      Step valid w { w with border := next }
  | client {next : Client K} (step : w.client.Step w.config valid next) :
      Step valid w { w with client := next }

/-- A style that the attach loop takes for handled is one that it resized the panes for. Before its
first read it has no other, and after it that is the one that it compared with last. -/
def Border.Sized (b : Border) (style : Str) : Prop :=
  match b.pc with
  | .resized | .armed _ => style = b.acted
  | .parked _ | .rearming | .rearmed _ => style = b.lastBorderStyle → style = b.acted
  | .starting | .resizing _ => True

/-- No loop that has read the config and has no listener yet is behind it, nor is an attach loop
that takes it for handled, or another wake is still to come. -/
def World.Heard (w : World S K) : Prop :=
  1 < w.config.pending ∨
    (∀ segments, w.runners = .spawned segments → w.config.value.segments = segments) ∧
      (w.raster.pc = .listening ∨ (∃ key, w.raster.pc = .building key false) →
        some w.config.value.fonts = w.raster.seen) ∧
      w.border.Sized w.config.value.borderStyle

/-- Any number of steps, of which each that wakes the listeners is heard. -/
inductive Run (valid : K → Bool) (w : World S K) : World S K → Prop
  | refl : Run valid w w
  | step {w' w'' : World S K} (run : Run valid w w') (next : Step valid w' w'')
      (heard : w'.config.wakes < w''.config.wakes → w'.Heard) : Run valid w w''

/-- Every loop that waits has acted on the current config, or has rejected it. -/
structure World.Followed (valid : K → Bool) (w : World S K) : Prop where
  runners : ∀ segments l, w.runners = .parked segments l → ¬ l.Woken w.config →
    w.config.value.segments = segments
  raster : ∀ l, w.raster.pc = .parked l → ¬ l.Woken w.config →
    some w.config.value.fonts = w.raster.seen ∧
      (w.raster.built = some w.config.value.fonts ∨ w.config.value.fonts ∈ w.raster.refused)
  border : ∀ l, w.border.pc = .parked l → ¬ l.Woken w.config →
    w.config.value.borderStyle = w.border.acted
  client : ∀ keys l, w.client = .parked keys l → ¬ l.Woken w.config →
    w.config.value.keys = keys ∨ valid w.config.value.keys = false

section Invariants

variable (cell : Cell (Config S K))

omit [DecidableEq K]

def Runners.Ok : Runners S → Prop
  | .spawned segments => Due cell fun c => c.segments = segments
  | .parked segments l => Fresh cell l fun c => c.segments = segments
  | _ => True

/-- What the rasterizer knows of the config. -/
def Raster.Knows (r : Raster) : Prop :=
  match r.pc with
  | .listening | .building _ false => Due cell fun c => some c.fonts = r.seen
  | .parked l => Fresh cell l fun c => some c.fonts = r.seen
  | _ => True

/-- What the rasterizer has done with the fonts that it read. -/
structure Raster.Kept (r : Raster) : Prop where
  last : ∀ key, r.lastFontKey = some key →
    r.built = some key ∨ key ∈ r.refused ∨ r.pc = .building key true
  building : ∀ key first, r.pc = .building key first → r.seen = some key
  seen : r.pc = .listening ∨ (∃ l, r.pc = .parked l) → ∀ key, r.seen = some key →
    r.built = some key ∨ key ∈ r.refused

/-- What the attach loop knows of the config. -/
structure Border.Ok (b : Border) : Prop where
  /-- Whoever takes the current style for handled resized for it, or a wake is still to come. -/
  sized : Due cell fun c => b.Sized c.borderStyle
  made : ∀ l, b.pc = .armed l ∨ b.pc = .rearmed l → l.wakes ≤ cell.wakes
  fresh : ∀ l, b.pc = .parked l ∨ b.pc = .resizing l →
    Fresh cell l fun c => c.borderStyle = b.lastBorderStyle

def Client.Ok (valid : K → Bool) : Client K → Prop
  | .armed _ l => l.wakes ≤ cell.wakes
  | .parked keys l => Fresh cell l fun c => c.keys = keys ∨ valid c.keys = false
  | _ => True

end Invariants

section Keeps

omit [DecidableEq K]

variable {cell : Cell (Config S K)}
variable {r : Raster}

theorem Runners.Ok.store {r : Runners S} (h : r.Ok cell) (config : Config S K) :
    r.Ok (cell.store config) := by
  cases r with
  | spawned segments => exact Due.store cell config fun c => c.segments = segments
  | parked segments l => exact Fresh.store h config
  | reading => trivial
  | stopping segments => trivial

theorem Runners.Ok.wake {r : Runners S} (h : r.Ok cell)
    (hheard : 1 < cell.pending ∨ ∀ segments, r = .spawned segments →
      cell.value.segments = segments) : r.Ok cell.wake := by
  cases r with
  | spawned segments =>
    show Due cell.wake fun c => c.segments = segments
    refine Due.wake ?_
    rcases hheard with hmore | hfits
    · exact .inr hmore
    · exact .inl (hfits segments rfl)
  | parked segments l => exact Fresh.wake h
  | reading => trivial
  | stopping segments => trivial

theorem Runners.Ok.step {r r' : Runners S} (h : r.Ok cell) (hstep : r.Step cell r') :
    r'.Ok cell := by
  cases hstep with
  | read => exact .inl rfl
  | listen segments => exact Due.listen h
  | wake segments l woken => trivial
  | stop segments => trivial

theorem Raster.Knows.store (h : r.Knows cell) (config : Config S K) :
    r.Knows (cell.store config) := by
  unfold Raster.Knows at h ⊢
  split at h
  · exact Due.store cell config _
  · exact Due.store cell config _
  · exact Fresh.store h config
  · trivial

theorem Raster.Knows.wake (h : r.Knows cell)
    (hheard : 1 < cell.pending ∨ (r.pc = .listening ∨ (∃ key, r.pc = .building key false) →
      some cell.value.fonts = r.seen)) : r.Knows cell.wake := by
  unfold Raster.Knows at h ⊢
  split at h
  · next hpc => exact Due.wake (hheard.symm.imp_left fun hfits => hfits (.inl hpc))
  · next key hpc => exact Due.wake (hheard.symm.imp_left fun hfits => hfits (.inr ⟨key, hpc⟩))
  · exact Fresh.wake h
  · trivial

theorem Raster.Knows.check (r : Raster) : (r.check cell.value.fonts).Knows cell := by
  unfold Raster.check
  split <;> exact .inl rfl

/-- The rasterizer reads before it listens. -/
theorem Raster.Knows.step {r' : Raster} (h : r.Knows cell) (hstep : r.Step cell r') :
    r'.Knows cell := by
  cases hstep with
  | first pc => trivial
  | built key first pc =>
    cases first with
    | true => trivial
    | false =>
      unfold Raster.Knows at h
      rw [pc] at h
      exact h
  | refused key first pc =>
    cases first with
    | true => trivial
    | false =>
      unfold Raster.Knows at h
      rw [pc] at h
      exact h
  | bootstrap pc => exact .check r
  | listen pc =>
    unfold Raster.Knows at h
    rw [pc] at h
    exact Due.listen h
  | wake l pc woken => trivial
  | read pc => exact .check r

theorem Raster.Kept.check (h : r.Kept) (hpc : ∀ key, r.pc ≠ .building key true)
    (key : SnapshotFontKey) : (r.check key).Kept := by
  unfold Raster.check
  split
  · next hsame =>
    have hdone : r.built = some key ∨ key ∈ r.refused := by
      rcases h.last key hsame.symm with hbuilt | hrefused | hbuilding
      · exact .inl hbuilt
      · exact .inr hrefused
      · exact absurd hbuilding (hpc key)
    refine ⟨fun k hk => ?_, nofun, fun _ k hk => ?_⟩
    · cases hsame.trans hk
      exact hdone.imp_right .inl
    · cases hk
      exact hdone
  · refine ⟨fun k hk => ?_, fun k first hk => ?_, ?_⟩
    · rcases h.last k hk with hbuilt | hrefused | hbuilding
      · exact .inl hbuilt
      · exact .inr (.inl hrefused)
      · exact absurd hbuilding (hpc k)
    · cases hk
      rfl
    · rintro (hpc | ⟨l, hpc⟩)
      · cases hpc
      · cases hpc

theorem RasterPc.after_ne (first : Bool) : (∀ key b, RasterPc.after first ≠ .building key b) ∧
    ∀ l, RasterPc.after first ≠ .parked l := by
  cases first with
  | true => exact ⟨nofun, nofun⟩
  | false => exact ⟨nofun, nofun⟩

theorem Raster.Kept.step {r' : Raster} (h : r.Kept) (hstep : r.Step cell r') : r'.Kept := by
  cases hstep with
  | first pc =>
    refine ⟨fun key hkey => ?_, fun key first hpc => ?_, ?_⟩
    · cases hkey
      exact .inr (.inr rfl)
    · cases hpc
      rfl
    · rintro (hpc | ⟨l, hpc⟩)
      · cases hpc
      · cases hpc
  | built key first pc =>
    have hseen := h.building key first pc
    refine ⟨fun k hk => .inl hk, fun k b hpc => absurd hpc ((RasterPc.after_ne first).1 k b),
      fun _ k hk => .inl ?_⟩
    exact hseen.symm.trans hk
  | refused key first pc =>
    have hseen := h.building key first pc
    refine ⟨fun k hk => ?_, fun k b hpc => absurd hpc ((RasterPc.after_ne first).1 k b),
      fun _ k hk => .inr ?_⟩
    · rcases h.last k hk with hbuilt | hrefused | hbuilding
      · exact .inl hbuilt
      · exact .inr (.inl (List.mem_cons_of_mem _ hrefused))
      · rw [pc] at hbuilding
        cases hbuilding
        exact .inr (.inl List.mem_cons_self)
    · cases hseen.symm.trans hk
      exact List.mem_cons_self
  | bootstrap pc => exact h.check (fun key hpc => by rw [pc] at hpc; cases hpc) _
  | listen pc =>
    refine ⟨fun key hkey => ?_, nofun, fun _ => h.seen (.inl pc)⟩
    rcases h.last key hkey with hbuilt | hrefused | hbuilding
    · exact .inl hbuilt
    · exact .inr (.inl hrefused)
    · rw [pc] at hbuilding
      cases hbuilding
  | wake l pc woken =>
    refine ⟨fun key hkey => ?_, nofun, ?_⟩
    · rcases h.last key hkey with hbuilt | hrefused | hbuilding
      · exact .inl hbuilt
      · exact .inr (.inl hrefused)
      · rw [pc] at hbuilding
        cases hbuilding
    · rintro (hpc | ⟨l, hpc⟩)
      · cases hpc
      · cases hpc
  | read pc => exact h.check (fun key hpc => by rw [pc] at hpc; cases hpc) _

theorem Border.Ok.store {b : Border} (h : b.Ok cell) (config : Config S K) :
    b.Ok (cell.store config) where
  sized := Due.store cell config _
  made := h.made
  fresh l hpc := (h.fresh l hpc).store config

theorem Border.Ok.wake {b : Border} (h : b.Ok cell)
    (hheard : 1 < cell.pending ∨ b.Sized cell.value.borderStyle) : b.Ok cell.wake where
  sized := Due.wake hheard.symm
  made l hpc := Nat.le_succ_of_le (h.made l hpc)
  fresh l hpc := (h.fresh l hpc).wake

/-- Whoever resizes for the current style may take it for handled. -/
theorem Border.sized_applyResizeToWindow (b : Border) (pc : BorderPc) :
    (b.applyResizeToWindow cell pc).Sized cell.value.borderStyle := by
  unfold Border.Sized Border.applyResizeToWindow
  split
  · rfl
  · rfl
  · exact fun _ => rfl
  · exact fun _ => rfl
  · exact fun _ => rfl
  · trivial
  · trivial

/-- The attach loop listens before it reads. -/
theorem Border.Ok.step {b b' : Border} (h : b.Ok cell) (hstep : b.Step cell b') : b'.Ok cell := by
  have hsized := h.sized
  cases hstep with
  | attach pc => exact ⟨.inl (b.sized_applyResizeToWindow _), by simp [Border.applyResizeToWindow],
      by simp [Border.applyResizeToWindow]⟩
  | arm pc =>
    refine ⟨hsized.imp_left fun hfits => ?_, ?_, by simp⟩
    · simpa [Border.Sized, pc] using hfits
    · rintro l (hpc | hpc)
      · cases hpc
        exact le_rfl
      · cases hpc
  | first l pc =>
    refine ⟨hsized.imp_left fun hfits => ?_, by simp, ?_⟩
    · intro _
      simpa [Border.Sized, pc] using hfits
    · rintro l' (hpc | hpc)
      · cases hpc
        exact .read (h.made l (.inl pc)) rfl
      · cases hpc
  | frame l pc =>
    refine ⟨.inl (b.sized_applyResizeToWindow _), by simp [Border.applyResizeToWindow], ?_⟩
    rintro l' (hpc | hpc)
    · cases hpc
      exact h.fresh l (.inl pc)
    · cases hpc
  | wake l pc woken =>
    refine ⟨hsized.imp_left fun hfits => ?_, by simp, by simp⟩
    simpa [Border.Sized, pc] using hfits
  | rearm pc =>
    refine ⟨hsized.imp_left fun hfits => ?_, ?_, by simp⟩
    · simpa [Border.Sized, pc] using hfits
    · rintro l (hpc | hpc)
      · cases hpc
      · cases hpc
        exact le_rfl
  | same l pc same =>
    refine ⟨hsized.imp_left fun hfits => ?_, by simp, ?_⟩
    · simpa [Border.Sized, pc] using hfits
    · rintro l' (hpc | hpc)
      · cases hpc
        exact .read (h.made l (.inr pc)) same
      · cases hpc
  | changed l pc changed =>
    refine ⟨.inl trivial, by simp, ?_⟩
    rintro l' (hpc | hpc)
    · cases hpc
    · cases hpc
      exact .read (h.made l (.inr pc)) rfl
  | resized l pc =>
    refine ⟨.inl (b.sized_applyResizeToWindow _), by simp [Border.applyResizeToWindow], ?_⟩
    rintro l' (hpc | hpc)
    · cases hpc
      exact h.fresh l (.inr pc)
    · cases hpc

/-- An attach loop that waits while no replacement is under way has resized for the style it
compared with last. -/
theorem Border.Ok.settled {b : Border} (h : b.Ok cell) {l : Listener} (hpc : b.pc = .parked l)
    (hwaits : ¬ l.Woken cell) (hdone : cell.pending = 0) :
    cell.value.borderStyle = b.acted := by
  have hlast := (h.fresh l (.inl hpc)).settled hwaits hdone
  rcases h.sized with hsized | hpending
  · unfold Border.Sized at hsized
    rw [hpc] at hsized
    exact hsized hlast
  · omega

end Keeps

section ClientKeeps

variable {cell : Cell (Config S K)} {valid : K → Bool}

section

omit [DecidableEq K]

theorem Client.Ok.store {c : Client K} (h : c.Ok cell valid) (config : Config S K) :
    c.Ok (cell.store config) valid := by
  cases c with
  | armed keys l => exact h
  | parked keys l => exact Fresh.store h config
  | starting keys => trivial
  | rearming keys => trivial

theorem Client.Ok.wake {c : Client K} (h : c.Ok cell valid) : c.Ok cell.wake valid := by
  cases c with
  | armed keys l => exact Nat.le_succ_of_le h
  | parked keys l => exact Fresh.wake h
  | starting keys => trivial
  | rearming keys => trivial

end

theorem rebind_fits (valid : K → Bool) (live keys : K) :
    live = rebind valid live keys ∨ valid live = false := by
  unfold rebind
  split_ifs with hsame hvalid
  · exact .inl hsame
  · exact .inl rfl
  · exact .inr (Bool.not_eq_true _ ▸ hvalid)

/-- A client listens before it reads. -/
theorem Client.Ok.step {c c' : Client K} (h : c.Ok cell valid) (hstep : c.Step cell valid c') :
    c'.Ok cell valid := by
  cases hstep with
  | arm keys => exact le_rfl
  | rebind keys l => exact Fresh.read h (rebind_fits valid cell.value.keys keys)
  | wake keys l woken => trivial
  | rearm keys => exact le_rfl

end ClientKeeps

/-- What holds of all loops. -/
structure World.Ok (valid : K → Bool) (w : World S K) : Prop where
  runners : w.runners.Ok w.config
  knows : w.raster.Knows w.config
  kept : w.raster.Kept
  border : w.border.Ok w.config
  client : w.client.Ok w.config valid

variable {valid : K → Bool} {w w' : World S K}

omit [DecidableEq K] in
theorem World.Ok.start (valid : K → Bool) (config : Config S K) (keys : K) :
    (World.start config keys).Ok valid where
  runners := trivial
  knows := trivial
  kept := ⟨nofun, nofun, fun _ => nofun⟩
  border := ⟨.inl trivial, by simp [World.start], by simp [World.start]⟩
  client := trivial

theorem World.Ok.step (h : w.Ok valid) (hstep : Step valid w w')
    (hheard : w.config.wakes < w'.config.wakes → w.Heard) : w'.Ok valid := by
  cases hstep with
  | store config =>
    exact ⟨h.runners.store config, h.knows.store config, h.kept, h.border.store config,
      h.client.store config⟩
  | notify underWay =>
    have hheard := hheard (Nat.lt_succ_self _)
    exact ⟨h.runners.wake (hheard.imp_right And.left),
      h.knows.wake (hheard.imp_right fun hall => hall.2.1), h.kept,
      h.border.wake (hheard.imp_right fun hall => hall.2.2), h.client.wake⟩
  | runners step => exact { h with runners := h.runners.step step }
  | raster step => exact { h with knows := h.knows.step step, kept := h.kept.step step }
  | border step => exact { h with border := h.border.step step }
  | client step => exact { h with client := h.client.step step }

theorem World.Ok.run (h : w.Ok valid) (hrun : Run valid w w') : w'.Ok valid := by
  induction hrun with
  | refl => exact h
  | step _ next heard ih => exact ih.step next heard

omit [DecidableEq K] in
/-- With no replacement under way, whoever waits is up to date. -/
theorem World.Ok.followed (h : w.Ok valid) (hdone : w.config.pending = 0) : w.Followed valid where
  runners segments l hparked hwaits := by
    have hok := h.runners
    rw [hparked] at hok
    exact Fresh.settled hok hwaits hdone
  raster l hparked hwaits := by
    have hknows := h.knows
    unfold Raster.Knows at hknows
    rw [hparked] at hknows
    have hseen := Fresh.settled hknows hwaits hdone
    exact ⟨hseen, h.kept.seen (.inr ⟨l, hparked⟩) _ hseen.symm⟩
  border l hparked hwaits := h.border.settled hparked hwaits hdone
  client keys l hparked hwaits := by
    have hok := h.client
    rw [hparked] at hok
    exact Fresh.settled hok hwaits hdone

/-- As long as every wake is heard, no replacement of the config is missed. -/
theorem reload_followed (valid : K → Bool) (config : Config S K) (keys : K)
    (hrun : Run valid (.start config keys) w) (hdone : w.config.pending = 0) :
    w.Followed valid :=
  ((World.Ok.start valid config keys).run hrun).followed hdone

section Runs

variable {w₀ : World S K}

/-- Only a replacement wakes anybody. -/
theorem Run.runners (run : Run valid w₀ w) {next : Runners S}
    (step : w.runners.Step w.config next) :
    Run valid w₀ { w with runners := next } :=
  run.step (.runners step) fun h => absurd h (lt_irrefl _)

theorem Run.raster (run : Run valid w₀ w) {next : Raster} (step : w.raster.Step w.config next) :
    Run valid w₀ { w with raster := next } :=
  run.step (.raster step) fun h => absurd h (lt_irrefl _)

theorem Run.border (run : Run valid w₀ w) {next : Border} (step : w.border.Step w.config next) :
    Run valid w₀ { w with border := next } :=
  run.step (.border step) fun h => absurd h (lt_irrefl _)

theorem Run.client (run : Run valid w₀ w) {next : Client K}
    (step : w.client.Step w.config valid next) : Run valid w₀ { w with client := next } :=
  run.step (.client step) fun h => absurd h (lt_irrefl _)

end Runs

namespace OneReload

/-- A status bar with one segment, and the next config with two, another font, border style and
keys. -/
def old : Config Nat Nat := ⟨[1], ⟨none, none⟩, ['r'], 0⟩

def new : Config Nat Nat := ⟨[1, 2], ⟨some ['f'], none⟩, ['n'], 5⟩

/-- All loops have acted on a config and wait. -/
def parked (config : Config Nat Nat) (l : Listener) : World Nat Nat where
  config := ⟨config, l.wakes, 0⟩
  runners := .parked config.segments l
  raster := ⟨.parked l, some config.fonts, some config.fonts, some config.fonts, []⟩
  border := ⟨.parked l, config.borderStyle, config.borderStyle⟩
  client := .parked config.keys l

theorem run_parked : Run (fun _ => true) (.start old 0) (parked old ⟨0⟩) := by
  have hrunners := ((@Run.refl _ _ _ (fun _ => true) (.start old 0)).runners .read).runners
    (.listen [1])
  have hbuilt := (hrunners.raster (.first _ rfl)).raster (.built _ _ _ rfl)
  have hraster := (hbuilt.raster (.bootstrap _ rfl)).raster (.listen _ rfl)
  have hborder := ((hraster.border (.attach _ rfl)).border (.arm _ rfl)).border (.first _ _ rfl)
  exact (hborder.client (.arm 0)).client (.rebind 0 ⟨0⟩)

theorem heard_parked : World.Heard { parked old ⟨0⟩ with config := ⟨new, 0, 1⟩ } := by
  refine .inr ⟨?_, ?_, fun h => absurd h (by decide)⟩
  · intro segments h
    cases h
  · rintro (h | ⟨_, h⟩)
    · cases h
    · cases h

/-- The config is replaced while all loops wait, and each of them acts on the new one. -/
theorem run_replaced : Run (fun _ => true) (.start old 0) (parked new ⟨1⟩) := by
  have hstore := run_parked.step (.store new) fun h => absurd h (by decide)
  have hnotify := hstore.step (.notify (by decide)) fun _ => heard_parked
  have hstopped := (hnotify.runners (.wake [1] ⟨0⟩ (by decide))).runners (.stop [1])
  have hrunners := (hstopped.runners .read).runners (.listen [1, 2])
  have hread := (hrunners.raster (.wake _ ⟨0⟩ rfl (by decide))).raster (.read _ rfl)
  have hraster := (hread.raster (.built _ new.fonts false rfl)).raster (.listen _ rfl)
  have hrearmed := (hraster.border (.wake _ ⟨0⟩ rfl (by decide))).border (.rearm _ rfl)
  have hborder := (hrearmed.border (.changed _ ⟨1⟩ rfl (by decide))).border (.resized _ ⟨1⟩ rfl)
  have hclient := (hborder.client (.wake 0 ⟨0⟩ (by decide))).client (.rearm 0)
  exact hclient.client (.rebind 0 ⟨1⟩)

theorem reload_followed_replaced : (parked new ⟨1⟩).Followed fun _ => true :=
  reload_followed (fun _ => true) old 0 run_replaced rfl

/-- The config is replaced between the read of the runners and their listener. -/
def missed : World Nat Nat :=
  { World.start old 0 with config := ⟨new, 1, 0⟩, runners := .parked [1] ⟨1⟩ }

theorem steps_missed : Relation.ReflTransGen (Step fun _ => true) (.start old 0) missed := by
  have hread := Relation.ReflTransGen.refl.tail
    (@Step.runners _ _ _ (fun _ => true) (.start old 0) _ .read)
  have hstore := hread.tail (.store new)
  have hnotify := hstore.tail (.notify (by decide))
  exact hnotify.tail (.runners (.listen [1]))

/-- The runners wait, and still run the segments of the config before. -/
theorem reload_missed : ¬ ∀ w : World Nat Nat,
    Relation.ReflTransGen (Step fun _ => true) (.start old 0) w → w.config.pending = 0 →
      w.Followed fun _ => true := by
  intro hall
  have hfollowed := hall missed steps_missed rfl
  exact absurd (hfollowed.runners [1] ⟨1⟩ rfl (by decide)) (by decide)

end OneReload

end Shux.Reload
