/-
# What verification of the audit log shows

The set an honest writer leaves is accepted as a whole, whatever was rotated away and however
often the daemon was restarted. And lines of an honest log that are put together in any other
way are accepted only when they are a stretch of it, one that starts with the log or with the
header of a rotation.
-/

import Shux.Lens.AuditVerify

namespace Shux.Lens

open Shux.Plugin (Json)
open List Option
open HashChain

variable {lastHash : Str}

/-- The values written so far and the hash the writer goes on from. -/
structure Writes (c : Codec) (written : List Json) (lastHash : Str) : Prop where
  chained : Chained prevOf hashIn genesisHash written
  intact : ∀ value ∈ written, Intact c value
  last : lastHash = tip hashIn genesisHash written

/-- The files hold the end of what was written, in segments: the first in the live file, the
next in `.1`, and so on. -/
structure Keeps (c : Codec) (files : Files) (written : List Json) (segments : List (List Json)) :
    Prop where
  text : ∀ n ≤ auditKeepRotations, files n = segments[n]?.map c.textOf
  few : segments.length ≤ auditKeepRotations + 1
  suffix : segments.reverse.flatten <:+ written
  opens : ∀ segment ∈ segments, ∃ value rest, segment = value :: rest ∧
    (prevOf value = genesisHash ∨ IsRotate value)
  nothing : segments = [] → written = []

variable {c : Codec}

theorem Writes.stamp {written : List Json} (h : Writes c written lastHash) (entry : Entry) :
    Writes c (written ++ [c.stamp lastHash entry.value])
      (c.hashOf lastHash (insertKey keyPrevHash (.string lastHash) entry.value)) where
  chained := by
    rw [chained_append, ← h.last]
    exact ⟨h.chained, prevOf_stamp c lastHash entry, trivial⟩
  intact := by
    intro value hmem
    rcases mem_append.1 hmem with hold | hnew
    · exact h.intact value hold
    · rw [mem_singleton.1 hnew]
      exact intact_stamp c lastHash entry
  last := by rw [tip_concat, hashIn_stamp]

theorem rotateAudit_zero (files : Files) : rotateAudit files 0 = none := by
  simp [rotateAudit, rename]

variable {files : Files}

/-- Where there is nothing to move and nothing in the way, moving changes nothing. -/
theorem shift_eq_rename {n : Nat} (h : files n = none → files (n + 1) = none) :
    (if (files n).isSome then rename files n (n + 1) else files) = rename files n (n + 1) := by
  split_ifs with hsome
  · rfl
  · have hnone : files n = none := by simpa using hsome
    funext m
    unfold rename
    by_cases hm : m = n
    · simp [hm, hnone]
    · by_cases hm' : m = n + 1
      · simp [hm', h hnone, hnone]
      · simp [hm, hm']

/-- Without a gap, a rotation moves every file one number up. -/
theorem rotateAudit_succ (hgap : files 4 = none → files 5 = none)
    {n : Nat} (hn : n < auditKeepRotations) : rotateAudit files (n + 1) = files n := by
  -- A number that was just moved away is free for the next one.
  have hnext : ∀ (files : Files) (n m : Nat), (if (rename files (n + 1) m n).isSome
      then rename (rename files (n + 1) m) n (n + 1) else rename files (n + 1) m) =
        rename (rename files (n + 1) m) n (n + 1) :=
    fun files n m => shift_eq_rename fun _ => by simp [rename]
  have hshift : rotateAudit files =
      rename (rename (rename (rename (rename files 4 5) 3 4) 2 3) 1 2) 0 1 := by
    simp only [rotateAudit, auditKeepRotations, List.range', reverse_cons, reverse_nil,
      nil_append, cons_append, foldl_cons, foldl_nil, Nat.reduceAdd,
      Nat.reduceSub]
    rw [shift_eq_rename hgap, hnext files 3 5, hnext _ 2 4, hnext _ 1 3]
  rw [hshift]
  unfold auditKeepRotations at hn
  interval_cases n <;> simp [rename]

theorem textOf_concat (c : Codec) (values : List Json) (value : Json) :
    c.textOf values ++ (c.toVec value ++ ['\n']) = c.textOf (values ++ [value]) := by
  simp [Codec.textOf, fileOf]

/-- The hash a file ends with is that of its last line. -/
theorem lastHashInFile_textOf {front : List Json} {last : Json}
    (hfaithful : Faithful c (front ++ [last])) (hintact : Intact c last) :
    c.lastHashInFile (some (c.textOf (front ++ [last]))) = some (hashIn last) := by
  have hlines : lines (c.textOf (front ++ [last])) = (front ++ [last]).map c.toVec :=
    hfaithful.lines_eq
  have hparse := hfaithful.parses last (by simp)
  simp only [Codec.lastHashInFile, bind_eq_bind, bind_some, hlines, map_append,
    map_cons, map_nil, List.getLast?_concat, hparse, hintact.hash]

namespace Keeps

variable {c : Codec} {files : Files} {written : List Json} {segments : List (List Json)}

/-- A further line in the live file. -/
theorem extend {segment : List Json} {older : List (List Json)}
    (h : Keeps c files written (segment :: older)) (value : Json) :
    Keeps c (Function.update files 0
        (some ((files 0).getD [] ++ (c.toVec value ++ ['\n'])))) (written ++ [value])
      ((segment ++ [value]) :: older) where
  text := by
    intro n hn
    cases n with
    | zero =>
      have hlive := h.text 0 (Nat.zero_le _)
      simp only [List.getElem?_cons_zero, map_some] at hlive
      simp [hlive, textOf_concat]
    | succ n => simpa using h.text (n + 1) hn
  few := h.few
  suffix := by
    obtain ⟨gone, hgone⟩ := h.suffix
    refine ⟨gone, ?_⟩
    rw [← hgone]
    simp
  opens := by
    intro seg hmem
    rcases mem_cons.1 hmem with rfl | hold
    · obtain ⟨first, rest, rfl, hjust⟩ := h.opens segment (by simp)
      exact ⟨first, rest ++ [value], rfl, hjust⟩
    · exact h.opens seg (mem_cons_of_mem _ hold)
  nothing := by
    intro hnil
    cases hnil

/-- The first line of a fresh live file, after the others were moved up. -/
theorem turn (h : Keeps c files written segments) {moved : Files} (hlive : moved 0 = none)
    (hmoved : ∀ n < auditKeepRotations, moved (n + 1) = files n) {value : Json}
    (hjust : prevOf value = genesisHash ∨ IsRotate value) :
    Keeps c (Function.update moved 0 (some ((moved 0).getD [] ++ (c.toVec value ++ ['\n']))))
      (written ++ [value]) ([value] :: segments.take auditKeepRotations) where
  text := by
    intro n hn
    cases n with
    | zero => simp [hlive, Codec.textOf, fileOf]
    | succ n =>
      have hlt : n < auditKeepRotations := hn
      rw [Function.update_of_ne (by simp), hmoved n hlt, h.text n hlt.le]
      simp [hlt]
  few := by simp [length_take]
  suffix := by
    obtain ⟨gone, hgone⟩ := h.suffix
    refine ⟨gone ++ (segments.drop auditKeepRotations).reverse.flatten, ?_⟩
    rw [← hgone]
    have hsplit : segments.reverse = (segments.drop auditKeepRotations).reverse ++
        (segments.take auditKeepRotations).reverse := by
      rw [← reverse_append, take_append_drop]
    simp [hsplit]
  opens := by
    intro seg hmem
    rcases mem_cons.1 hmem with rfl | hold
    · exact ⟨value, [], rfl, hjust⟩
    · exact h.opens seg (mem_of_mem_take hold)
  nothing := by
    intro hnil
    cases hnil

/-- The last line of the live file is the last one written. -/
theorem lastHashInFile_live (h : Keeps c files written segments) (hfaithful : Faithful c written)
    (hintact : ∀ value ∈ written, Intact c value) :
    (c.lastHashInFile (files 0)).getD genesisHash = tip hashIn genesisHash written := by
  rw [h.text 0 (Nat.zero_le _)]
  cases segments with
  | nil =>
    rw [h.nothing rfl]
    rfl
  | cons segment older =>
    obtain ⟨gone, hgone⟩ := h.suffix
    obtain ⟨first, rest, rfl, -⟩ := h.opens segment (by simp)
    obtain ⟨front, last, hlast⟩ : ∃ front last, first :: rest = front ++ [last] :=
      ⟨_, _, (dropLast_append_getLast (by simp)).symm⟩
    rw [hlast] at hgone ⊢
    have hwritten : written = (gone ++ older.reverse.flatten ++ front) ++ [last] := by
      rw [← hgone]
      simp
    have hmem : last ∈ written := by simp [hwritten]
    have hsub : front ++ [last] ⊆ written := by
      intro value hvalue
      rw [hwritten]
      simp only [mem_append] at hvalue ⊢
      tauto
    have htip : tip hashIn genesisHash written = hashIn last := by rw [hwritten, tip_concat]
    rw [htip, List.getElem?_cons_zero, map_some,
      lastHashInFile_textOf (hfaithful.mono hsub) (hintact last hmem), getD_some]

end Keeps

namespace Honest

variable {c : Codec} {honest : Honest} {segments : List (List Json)}

theorem keeps_appendLocked (hwrites : Writes c honest.written honest.log.lastHash)
    (hkeeps : Keeps c honest.log.files honest.written segments) (entry : Entry) :
    ∃ more, Keeps c (honest.log.appendLocked c entry.value).2.files
      (honest.written ++ [c.stamp honest.log.lastHash entry.value]) more := by
  cases segments with
  | nil =>
    -- Nothing was ever written, so the first entry carries the genesis hash.
    have hlast : honest.log.lastHash = genesisHash := by
      rw [hwrites.last, hkeeps.nothing rfl]
      rfl
    have hempty : ∀ n ≤ auditKeepRotations, honest.log.files n = none := by
      intro n hn
      simpa using hkeeps.text n hn
    refine ⟨_, hkeeps.turn (hempty 0 (Nat.zero_le _)) (fun n hn => ?_) (.inl ?_)⟩
    · rw [hempty n hn.le, hempty (n + 1) hn]
    · rw [prevOf_stamp, hlast]
  | cons segment older => exact ⟨_, hkeeps.extend _⟩

theorem keeps_rotate (hkeeps : Keeps c honest.log.files honest.written segments) (ts : Str) :
    ∃ more, Keeps c ({ honest.log with files := rotateAudit honest.log.files }.appendLocked c
        (Entry.header ts).value).2.files
      (honest.written ++ [c.stamp honest.log.lastHash (Entry.header ts).value]) more := by
  have hgap : honest.log.files 4 = none → honest.log.files 5 = none := by
    rw [hkeeps.text 4 (by decide), hkeeps.text 5 (by decide)]
    simp only [map_eq_none_iff, List.getElem?_eq_none_iff]
    omega
  refine ⟨_, hkeeps.turn (rotateAudit_zero _) (fun n hn => rotateAudit_succ hgap hn) (.inr ?_)⟩
  rw [IsRotate, strField_stamp_method]
  rfl

/-- An append or a restart leaves the files with the end of what was written. -/
theorem step_keeps (hfaithful : Faithful c honest.written)
    (hwrites : Writes c honest.written honest.log.lastHash)
    (hkeeps : Keeps c honest.log.files honest.written segments) (event : Event) :
    Writes c (honest.step c event).written (honest.step c event).log.lastHash ∧
      ∃ more, Keeps c (honest.step c event).log.files (honest.step c event).written more := by
  cases event with
  | append entry ts =>
    simp only [step, LensAuditLog.appendBlocking]
    split_ifs with hover
    · obtain ⟨more, hmore⟩ := keeps_rotate hkeeps ts
      have hheader := hwrites.stamp (Entry.header ts)
      rw [append_cons]
      exact ⟨hheader.stamp entry, @keeps_appendLocked c ⟨_, _⟩ more hheader hmore entry⟩
    · exact ⟨hwrites.stamp entry, keeps_appendLocked hwrites hkeeps entry⟩
  | restart =>
    refine ⟨⟨hwrites.chained, hwrites.intact, ?_⟩, segments, hkeeps⟩
    exact hkeeps.lastHashInFile_live hfaithful hwrites.intact

theorem run_concat (events : List Event) (event : Event) :
    run c (events ++ [event]) = (run c events).step c event := by
  rw [run, foldl_append]
  rfl

theorem written_prefix_step (event : Event) : honest.written <+: (honest.step c event).written := by
  cases event with
  | append entry ts => exact prefix_append _ _
  | restart => exact prefix_rfl

/-- Whatever was appended and however often the daemon was restarted. -/
theorem run_keeps {events : List Event} (hfaithful : Faithful c (run c events).written) :
    Writes c (run c events).written (run c events).log.lastHash ∧
      ∃ segments, Keeps c (run c events).log.files (run c events).written segments := by
  induction events using List.reverseRecOn with
  | nil =>
    refine ⟨⟨trivial, by simp [run, fresh], rfl⟩, [], ?_⟩
    exact ⟨fun n _ => rfl, by simp, suffix_rfl, by simp, fun _ => rfl⟩
  | append_singleton events event ih =>
    rw [run_concat] at hfaithful ⊢
    have hbefore : Faithful c (run c events).written :=
      hfaithful.mono (written_prefix_step event).subset
    obtain ⟨hwrites, segments, hkeeps⟩ := ih hbefore
    exact step_keeps hbefore hwrites hkeeps event

/-- Once something was appended, something was written. -/
theorem written_ne_nil {events : List Event} {entry : Entry} {ts : Str}
    (hmem : Event.append entry ts ∈ events) : (run c events).written ≠ [] := by
  induction events using List.reverseRecOn with
  | nil => simp at hmem
  | append_singleton events event ih =>
    rw [run_concat]
    rcases mem_append.1 hmem with hold | hnew
    · intro hnil
      have hfront : (run c events).written <+: ((run c events).step c event).written :=
        written_prefix_step event
      rw [hnil, prefix_nil] at hfront
      exact ih hold hfront
    · rw [← mem_singleton.1 hnew]
      simp only [step, LensAuditLog.appendBlocking]
      split_ifs <;> simp

end Honest

theorem hexDigit_inj {a b : Nat} (ha : a < 16) (hb : b < 16) (h : hexDigit a = hexDigit b) :
    a = b := by
  have hall : ∀ a b : Fin 16, hexDigit a = hexDigit b → a = b := by decide
  exact congrArg Fin.val (hall ⟨a, ha⟩ ⟨b, hb⟩ h)

theorem length_hexEncode (bytes : List UInt8) : (hexEncode bytes).length = 2 * bytes.length := by
  induction bytes with
  | nil => rfl
  | cons b rest ih =>
    have hcons : hexEncode (b :: rest) =
        hexDigit (b.toNat / 16) :: hexDigit (b.toNat % 16) :: hexEncode rest := rfl
    rw [hcons, length_cons, length_cons, ih, length_cons]
    omega

theorem hexEncode_inj {a b : List UInt8} (h : hexEncode a = hexEncode b) : a = b := by
  induction a generalizing b with
  | nil =>
    have hlen := congrArg List.length h
    rw [length_hexEncode, length_hexEncode, length_nil] at hlen
    exact (length_eq_zero_iff.1 (by omega)).symm
  | cons x xs ih =>
    cases b with
    | nil =>
      have hlen := congrArg List.length h
      rw [length_hexEncode, length_hexEncode, length_nil, length_cons] at hlen
      omega
    | cons y ys =>
      have hcons : hexDigit (x.toNat / 16) :: hexDigit (x.toNat % 16) :: hexEncode xs =
          hexDigit (y.toNat / 16) :: hexDigit (y.toNat % 16) :: hexEncode ys := h
      injection hcons with hhigh hrest
      injection hrest with hlow hmore
      have hx := x.toNat_lt
      have hy := y.toNat_lt
      have h1 := hexDigit_inj (by omega) (by omega) hhigh
      have h2 := hexDigit_inj (by omega) (by omega) hlow
      have hxy : x = y := UInt8.toNat_inj.1 (by omega)
      rw [hxy, ih hmore]

/-- What the hash of a written value is taken of. -/
def Codec.hashInput (c : Codec) (value : Json) : Str :=
  prevOf value ++ c.toVec (removeKey keyHash value)

/-- SHA-256 as far as these values go: it tells them apart, and gives none the digest of a
log's start. -/
structure CollisionFree (c : Codec) (values : List Json) : Prop where
  length : ∀ value ∈ values, (c.sha256 (c.hashInput value)).length = 32
  injective : ∀ a ∈ values, ∀ b ∈ values,
    c.sha256 (c.hashInput a) = c.sha256 (c.hashInput b) → c.hashInput a = c.hashInput b
  nonzero : ∀ value ∈ values, c.sha256 (c.hashInput value) ≠ List.replicate 32 0

/-- A written value's own hash is the digest in hex. -/
theorem Intact.hashIn_eq {value : Json} (h : Intact c value) :
    hashIn value = hexEncode (c.sha256 (c.hashInput value)) := h.recomputed.symm

theorem length_prevOf {log : List Json} {start : Str} (h : Chained prevOf hashIn start log)
    (hstart : start.length = 64) (hhash : ∀ value ∈ log, (hashIn value).length = 64) :
    ∀ value ∈ log, (prevOf value).length = 64 := by
  induction log generalizing start with
  | nil => simp
  | cons first rest ih =>
    refine forall_mem_cons.2 ⟨?_, ?_⟩
    · rw [h.1]
      exact hstart
    · exact ih h.2 (hhash first (by simp)) fun value hmem => hhash value (mem_cons_of_mem _ hmem)

/-- An honest log is a sealed chain. -/
theorem Writes.sealed {written : List Json}
    (h : Writes c written lastHash) (hsha : CollisionFree c written) :
    Sealed prevOf hashIn genesisHash written where
  chained := h.chained
  tells := by
    intro a ha b hb heq
    have hlen : ∀ value ∈ written, (hashIn value).length = 64 := by
      intro value hmem
      rw [(h.intact value hmem).hashIn_eq, length_hexEncode, hsha.length value hmem]
    have hprev := length_prevOf h.chained (by decide) hlen
    rw [(h.intact a ha).hashIn_eq, (h.intact b hb).hashIn_eq] at heq
    have hinput := hsha.injective a ha b hb (hexEncode_inj heq)
    exact (append_inj hinput (by rw [hprev a ha, hprev b hb])).1
  fresh := by
    intro value hmem heq
    have hzero : genesisHash = hexEncode (List.replicate 32 0) := by decide
    rw [(h.intact value hmem).hashIn_eq, hzero] at heq
    exact hsha.nonzero value hmem (hexEncode_inj heq)

/-- The lines of a set in the order verification reads them. -/
def setLines (files : Files) : List Str :=
  (setFiles files).flatMap fun n => ((files n).map lines).getD []

/-- Files put together from given lines: deleted, repeated, reordered, moved between files. -/
def Assembled (texts : List Str) (files : Files) : Prop :=
  ∀ n ≤ auditKeepRotations, files n = none ∨
    ∃ chosen, (∀ text ∈ chosen, text ∈ texts) ∧ files n = some (fileOf chosen)

theorem setFiles_le (files : Files) : ∀ n ∈ setFiles files, n ≤ auditKeepRotations := by
  intro n hn
  simp only [setFiles, mem_append, mem_reverse, mem_filter, mem_range'_1, mem_singleton] at hn
  unfold auditKeepRotations at hn ⊢
  omega

theorem Laid.setLines_eq {held : Nat → Option (List Json)} (h : Laid c files held) :
    setLines files = (inOrder held (setFiles files)).map c.toVec := by
  rw [setLines, inOrder, map_flatMap]
  refine flatMap_congr fun n hn => ?_
  rw [h.text n (setFiles_le files n hn)]
  cases hheld : held n with
  | none => rfl
  | some values => simpa [Codec.textOf] using (h.faithful n values hheld).lines_eq

/-- A file of lines of the log holds values of the log. -/
theorem exists_values {values : List Json} {chosen : List Str}
    (h : ∀ text ∈ chosen, text ∈ values.map c.toVec) :
    ∃ taken, taken ⊆ values ∧ chosen = taken.map c.toVec := by
  induction chosen with
  | nil => exact ⟨[], by simp, rfl⟩
  | cons text rest ih =>
    obtain ⟨taken, hsub, rfl⟩ := ih fun t ht => h t (mem_cons_of_mem _ ht)
    obtain ⟨value, hmem, rfl⟩ := mem_map.1 (h text (by simp))
    exact ⟨value :: taken, cons_subset.2 ⟨hmem, hsub⟩, rfl⟩

theorem Assembled.held {values : List Json} (h : Assembled (values.map c.toVec) files) :
    ∃ held : Nat → Option (List Json),
      (∀ n ≤ auditKeepRotations, files n = (held n).map c.textOf) ∧
        ∀ n taken, held n = some taken → taken ⊆ values := by
  have hfile : ∀ n, ∃ held : Option (List Json),
      (n ≤ auditKeepRotations → files n = held.map c.textOf) ∧
        ∀ taken, held = some taken → taken ⊆ values := by
    intro n
    by_cases hn : n ≤ auditKeepRotations
    · rcases h n hn with hnone | ⟨chosen, hmem, hsome⟩
      · exact ⟨none, fun _ => hnone, by simp⟩
      · obtain ⟨taken, hsub, rfl⟩ := exists_values hmem
        exact ⟨some taken, fun _ => hsome, by simpa using hsub⟩
    · exact ⟨none, fun hle => (hn hle).elim, by simp⟩
  choose held htext hsub using hfile
  exact ⟨held, fun n hn => htext n hn, hsub⟩

namespace Keeps

variable {c : Codec} {files : Files} {written : List Json} {segments : List (List Json)}

section

variable (h : Keeps c files written segments)
include h

theorem segment_subset {n : Nat} {segment : List Json}
    (hsegment : segments[n]? = some segment) : segment ⊆ written := by
  intro value hvalue
  refine h.suffix.subset (mem_flatten.2 ⟨segment, ?_, hvalue⟩)
  exact mem_reverse.2 (mem_of_getElem? hsegment)

theorem laid (hfaithful : Faithful c written)
    (hintact : ∀ value ∈ written, Intact c value) : Laid c files fun n => segments[n]? where
  text := h.text
  faithful _ _ hheld := hfaithful.mono (h.segment_subset hheld)
  intact _ _ hheld value hmem := hintact value (h.segment_subset hheld hmem)

/-- The set is all files there are. -/
theorem setFiles_eq (hne : segments ≠ []) :
    setFiles files = (List.range segments.length).reverse := by
  have hsome : ∀ n ≤ auditKeepRotations, (files n).isSome = decide (n < segments.length) := by
    intro n hn
    rw [h.text n hn, isSome_map, Bool.eq_iff_iff, decide_eq_true_iff, isSome_getElem?]
  have hpos := length_pos_iff.2 hne
  have hfew := h.few
  unfold auditKeepRotations at hfew
  simp only [setFiles, auditKeepRotations, List.range', filter_cons, filter_nil,
    hsome 1 (by decide), hsome 2 (by decide), hsome 3 (by decide), hsome 4 (by decide),
    hsome 5 (by decide), Nat.reduceAdd]
  interval_cases segments.length <;> rfl

theorem inOrder_eq :
    inOrder (fun n => segments[n]?) (setFiles files) = segments.reverse.flatten := by
  by_cases hne : segments = []
  · simp [hne, inOrder]
  · rw [h.setFiles_eq hne, inOrder, flatMap_def, map_reverse]
    congr 2
    refine ext_getElem (by simp) fun n hn hn' => ?_
    simp [hn']

/-- What is left of an honest log is its end. -/
theorem setLines_suffix (hfaithful : Faithful c written)
    (hintact : ∀ value ∈ written, Intact c value) :
    setLines files <:+ written.map c.toVec := by
  rw [(h.laid hfaithful hintact).setLines_eq, h.inOrder_eq]
  exact h.suffix.map c.toVec

/-- What an honest writer left is accepted, every line of it counted. -/
theorem accepted (hne : segments ≠ [])
    (hfaithful : Faithful c written) (hwrites : Writes c written lastHash) :
    c.verifyChainSet files = .ok (setLines files).length := by
  have hlaid := h.laid hfaithful hwrites.intact
  have horder := h.inOrder_eq
  obtain ⟨gone, hgone⟩ := h.suffix
  -- The oldest file comes first, and opens with a value that justifies its anchor.
  obtain ⟨newer, oldest, rfl⟩ : ∃ newer oldest, segments = newer ++ [oldest] :=
    ⟨_, _, (dropLast_append_getLast hne).symm⟩
  obtain ⟨value, rest, rfl, hjust⟩ := h.opens oldest (by simp)
  have hfiles := h.setFiles_eq hne
  rw [length_append, length_singleton, range_succ, reverse_append,
    reverse_singleton, singleton_append] at hfiles
  have hchain : Chained prevOf hashIn (tip hashIn genesisHash gone)
      (newer ++ [value :: rest]).reverse.flatten :=
    (chained_append.1 (hgone ▸ hwrites.chained)).2
  rw [hlaid.setLines_eq, length_map]
  rw [Codec.verifyChainSet, hfiles]
  rw [hfiles] at horder
  refine (hlaid.verifyFiles_trusted_iff ?_ _).2 ⟨?_, rfl, _, horder ▸ hchain, ?_⟩
  · rw [← hfiles]
    exact setFiles_le files
  · intro m hm
    simp only [mem_cons, mem_reverse, mem_range] at hm
    rw [isSome_getElem?, length_append, length_singleton]
    omega
  · refine hjust.imp (fun hgenesis => ?_) fun hrotate => ⟨value, rest, by simp, hrotate⟩
    simp only [reverse_append, reverse_singleton, flatten_cons, cons_append, Chained] at hchain
    rw [← hchain.1, hgenesis]

end

end Keeps

/-- Lines of a sealed log that verification accepts are a stretch of it. -/
theorem accepted_stretch {written : List Json}
    (hfaithful : Faithful c written) (hwrites : Writes c written lastHash)
    (hsha : CollisionFree c written)
    (hassembled : Assembled (written.map c.toVec) files) {n : Nat}
    (haccepted : c.verifyChainSet files = .ok n) :
    ∃ start count, setLines files = ((written.drop start).take count).map c.toVec ∧
      (start = 0 ∨ ∃ value, written[start]? = some value ∧ IsRotate value) := by
  obtain ⟨held, htext, hsub⟩ := hassembled.held
  have hlaid : Laid c files held :=
    ⟨htext, fun m taken hheld => hfaithful.mono (hsub m taken hheld),
      fun m taken hheld value hmem => hwrites.intact value (hsub m taken hheld hmem)⟩
  have hsealed := hwrites.sealed hsha
  rw [hlaid.setLines_eq]
  have hle := setFiles_le files
  obtain ⟨first, others, hfiles⟩ : ∃ first others, setFiles files = first :: others :=
    exists_cons_of_ne_nil (by simp [setFiles])
  rw [Codec.verifyChainSet, hfiles] at haccepted
  rw [hfiles] at hle ⊢
  obtain ⟨-, -, start, hchain, hjust⟩ := (hlaid.verifyFiles_trusted_iff hle n).1 haccepted
  have hmem : ∀ value ∈ inOrder held (first :: others), value ∈ written := by
    intro value hvalue
    obtain ⟨m, -, hm⟩ := mem_flatMap.1 hvalue
    cases hheld : held m with
    | none => simp [hheld] at hm
    | some taken => exact hsub m taken hheld (by simpa [hheld] using hm)
  cases htaken : inOrder held (first :: others) with
  | nil => exact ⟨0, 0, by simp, .inl rfl⟩
  | cons value rest =>
    rw [htaken] at hmem hchain
    rcases hjust with rfl | ⟨head, tail, hhead, hrotate⟩
    · have hfirst := hsealed.first (hmem value (by simp)) hchain.1
      exact ⟨0, _, congrArg _ (hsealed.stretch hmem hchain hfirst), .inl rfl⟩
    · obtain rfl : head = value := by
        simp only [inOrder, flatMap_cons, hhead, getD_some, cons_append, List.cons.injEq] at htaken
        exact htaken.1
      obtain ⟨i, hi⟩ := mem_iff_getElem?.1 (hmem head (by simp))
      exact ⟨i, _, congrArg _ (hsealed.stretch hmem hchain hi), .inr ⟨head, hi, hrotate⟩⟩

/-- An honest log that something was appended to is accepted, and every line that is left of it
is counted. Lines of it put together in any way are accepted only as a stretch of the log that
starts where the log does or at the header of a rotation. -/
theorem verifyChainSet_honest (c : Codec) (events : List Event)
    (hfaithful : Faithful c (Honest.run c events).written)
    (hsha : CollisionFree c (Honest.run c events).written) :
    ((∃ entry ts, Event.append entry ts ∈ events) →
      setLines (Honest.run c events).log.files <:+ (Honest.run c events).written.map c.toVec ∧
        c.verifyChainSet (Honest.run c events).log.files =
          .ok (setLines (Honest.run c events).log.files).length) ∧
    ∀ files n, Assembled (setLines (Honest.run c events).log.files) files →
      c.verifyChainSet files = .ok n →
        ∃ start count, setLines files =
            (((Honest.run c events).written.drop start).take count).map c.toVec ∧
          (start = 0 ∨
            ∃ value, (Honest.run c events).written[start]? = some value ∧ IsRotate value) := by
  obtain ⟨hwrites, segments, hkeeps⟩ := Honest.run_keeps hfaithful
  have hsuffix := hkeeps.setLines_suffix hfaithful hwrites.intact
  refine ⟨?_, fun files n hassembled haccepted => ?_⟩
  · rintro ⟨entry, ts, hmem⟩
    have hne : segments ≠ [] := fun hnil => Honest.written_ne_nil hmem (hkeeps.nothing hnil)
    exact ⟨hsuffix, hkeeps.accepted hne hfaithful hwrites⟩
  · refine accepted_stretch hfaithful hwrites hsha (fun m hm => ?_) haccepted
    refine (hassembled m hm).imp id fun ⟨chosen, hchosen, htext⟩ => ⟨chosen, ?_, htext⟩
    exact fun text htext => hsuffix.subset (hchosen text htext)

theorem Honest.written_append {honest : Honest} (h : honest.log.oversized = false)
    (entry : Entry) (ts : Str) : (honest.step c (.append entry ts)).written =
      honest.written ++ [c.stamp honest.log.lastHash entry.value] := by
  simp [Honest.step, LensAuditLog.appendBlocking, LensAuditLog.appendLocked, h]

namespace Sample

/-- Compact JSON of an object of strings. -/
def compact : Json → Str
  | .object fields =>
    '{' :: ((fields.map fun field =>
      match field.2 with
      | .string text => '"' :: field.1 ++ "\":\"".toList ++ text ++ ['"']
      | _ => []).intersperse [',']).flatten ++ ['}']
  | _ => []

def digit (c : Char) : Nat := if c ≤ '9' then c.toNat - 48 else c.toNat - 87

/-- The bytes of a hash in hex. -/
def unhex : Str → List UInt8
  | a :: b :: rest => .ofNat (16 * digit a + digit b) :: unhex rest
  | _ => []

/-- The codec, as far as a log of these values goes. -/
def codecOf (values : List Json) : Codec where
  toVec := compact
  fromStr text := values.find? fun value => compact value = text
  sha256 text := ((values.find? fun value =>
    prevOf value ++ compact (removeKey keyHash value) = text).map fun value =>
      unhex (hashIn value)).getD []

theorem find?_of_nodup {f : Json → Str} {values : List Json} (h : (values.map f).Nodup)
    {value : Json} (hmem : value ∈ values) :
    values.find? (fun other => f other = f value) = some value := by
  induction values with
  | nil => cases hmem
  | cons first rest ih =>
    obtain ⟨hfirst, hrest⟩ := nodup_cons.1 h
    rcases mem_cons.1 hmem with rfl | hmem
    · exact find?_cons_of_pos (decide_eq_true rfl)
    · rw [find?_cons_of_neg, ih hrest hmem]
      intro heq
      exact hfirst (of_decide_eq_true heq ▸ mem_map_of_mem hmem)

theorem faithful_codecOf {values : List Json} (h : (values.map compact).Nodup)
    (hlines : ∀ value ∈ values, OneLine (compact value)) : Faithful (codecOf values) values where
  parses _ hmem := find?_of_nodup h hmem
  oneLine := hlines

def firstHash : Str := "454dd7e6b541c10d3aa4faf700fda443c1e6956fc441c7cf43421839f75c623c".toList
def secondHash : Str := "c8998798b22c7f84df2e9de8a32e90b70b6746d8c10f93a12224219b0ca8387b".toList

def firstEntry : Entry where
  fields := [(keyMethod, .string "lens.run".toList)]
  sorted := by simp
  noPrevHash := by rfl
  noHash := by rfl

def secondEntry : Entry where
  fields := [(keyMethod, .string "scratch.reap".toList)]
  sorted := by simp
  noPrevHash := by rfl
  noHash := by rfl

def first : Json :=
  .object [(keyHash, .string firstHash), (keyMethod, .string "lens.run".toList),
    (keyPrevHash, .string genesisHash)]

def second : Json :=
  .object [(keyHash, .string secondHash), (keyMethod, .string "scratch.reap".toList),
    (keyPrevHash, .string firstHash)]

def codec : Codec := codecOf [first, second]

def events : List Event := [.append firstEntry [], .restart, .append secondEntry []]

/-- What the hash gives on the two entries, and what the restart reads back. -/
theorem evaluated :
    (codec.hashOf genesisHash (insertKey keyPrevHash (.string genesisHash) firstEntry.value) =
        firstHash ∧
      codec.hashOf firstHash (insertKey keyPrevHash (.string firstHash) secondEntry.value) =
        secondHash) ∧
      ((∀ value ∈ [first, second], (codec.sha256 (codec.hashInput value)).length = 32) ∧
        codec.sha256 (codec.hashInput first) ≠ codec.sha256 (codec.hashInput second) ∧
        ∀ value ∈ [first, second],
          codec.sha256 (codec.hashInput value) ≠ List.replicate 32 0) ∧
      (Honest.run codec [.append firstEntry [], .restart]).log.lastHash = firstHash ∧
      (Honest.run codec [.append firstEntry [], .restart]).log.oversized = false := by
  decide +kernel

theorem stamp_first : codec.stamp genesisHash firstEntry.value = first := by
  rw [Codec.stamp, evaluated.1.1]
  rfl

theorem stamp_second : codec.stamp firstHash secondEntry.value = second := by
  rw [Codec.stamp, evaluated.1.2]
  rfl

theorem written_eq : (Honest.run codec events).written = [first, second] := by
  obtain ⟨hlast, hsmall⟩ := evaluated.2.2
  have hfirst : (Honest.run codec [.append firstEntry [], .restart]).written = [first] := by
    rw [← stamp_first]
    exact Honest.written_append rfl firstEntry []
  have hsecond := Honest.written_append (c := codec) hsmall secondEntry []
  rw [hlast, stamp_second, hfirst, ← Honest.run_concat] at hsecond
  exact hsecond

theorem faithful : Faithful codec [first, second] := by
  refine faithful_codecOf (by decide) fun value hmem => ?_
  rcases mem_pair.1 hmem with rfl | rfl
  · exact ⟨by decide, by decide⟩
  · exact ⟨by decide, by decide⟩

theorem collisionFree : CollisionFree codec [first, second] where
  length := evaluated.2.1.1
  injective := by
    intro a ha b hb heq
    rcases mem_pair.1 ha with rfl | rfl <;> rcases mem_pair.1 hb with rfl | rfl
    · rfl
    · exact absurd heq evaluated.2.1.2.1
    · exact absurd heq.symm evaluated.2.1.2.1
    · rfl
  nonzero := evaluated.2.1.2.2

/-- A log of two entries with a restart in between is accepted with both. -/
theorem verifyChainSet_honest_restarted :
    codec.verifyChainSet (Honest.run codec events).log.files =
      .ok (setLines (Honest.run codec events).log.files).length :=
  ((verifyChainSet_honest codec events (written_eq ▸ faithful) (written_eq ▸ collisionFree)).1
    ⟨firstEntry, [], by simp [events]⟩).2

/-- Before anything is appended there is no live file to read. -/
theorem verifyChainSet_nothing :
    codec.verifyChainSet (Honest.run codec []).log.files = .error .read := by
  decide

end Sample

end Shux.Lens
