/-
# What a reference resolves to

A complete UUID is taken as it is. Any other reference is read as digits, and resolves when it is
the start of exactly one id there is: no such id is not found, two are an ambiguity, and too few
or too many digits are no reference at all. The order in which the ids are listed makes no
difference, an id resolves to itself, and the short form of an id to no other one.
-/

import Shux.Core.IdRef

namespace Shux

open List UuidText

/-- The digits of a reference. -/
def refDigits (input : Str) : Str := ((trim input).filter fun c => c != '-').map Char.toLower

/-- A reference abbreviates an id: its digits are the start of it, and enough of it. -/
structure Abbreviates (input : Str) (id : Uuid) : Prop where
  enough : minPrefixLen ≤ (refDigits input).length
  proper : (refDigits input).length < uuidHexLen
  start : (refDigits input).isPrefixOf id.simple = true

/-- The short form of an id, as listings print it. -/
def shortId (id : Str) : Str := if 8 ≤ id.length then id.take 8 else id

theorem digitChar_hex : ∀ d < 16, isAsciiHexDigit d.digitChar = true ∧
    isWhitespace d.digitChar = false ∧ d.digitChar ≠ '-' ∧ d.digitChar.toLower = d.digitChar := by
  decide

theorem mem_simple {id : Uuid} {c : Char} (hc : c ∈ id.simple) : ∃ d < 16, c = d.digitChar := by
  unfold Uuid.simple List.leftpad at hc
  rcases mem_append.mp hc with hpad | hdigit
  · exact ⟨0, by decide, eq_of_mem_replicate hpad⟩
  · revert hdigit
    generalize id.value = n
    induction n using Nat.strong_induction_on with
    | _ n ih =>
      intro hdigit
      rw [Nat.toDigits_eq_if (by decide)] at hdigit
      split_ifs at hdigit with hlt
      · exact ⟨n, hlt, mem_singleton.mp hdigit⟩
      · rcases mem_append.mp hdigit with hfront | hlast
        · exact ih (n / 16) (by omega) hfront
        · exact ⟨n % 16, Nat.mod_lt _ (by decide), mem_singleton.mp hlast⟩

theorem length_simple (id : Uuid) : uuidHexLen ≤ id.simple.length := by
  unfold Uuid.simple
  rw [length_leftpad]
  exact le_max_left _ _

theorem trim_eq_self {s : Str} (h : ∀ c ∈ s, isWhitespace c = false) : trim s = s := by
  have hdrop : s.dropWhile isWhitespace = s := by
    cases s with
    | nil => rfl
    | cons c rest => exact dropWhile_cons_of_neg (by simp [h c mem_cons_self])
  rw [trim, hdrop, rdropWhile_eq_self_iff]
  intro hne
  simp [h _ (getLast_mem hne)]

/-- The first digits of an id are the digits of the reference they spell. -/
theorem refDigits_take (id : Uuid) (n : Nat) : refDigits (id.simple.take n) = id.simple.take n := by
  have hmem : ∀ c ∈ id.simple.take n, ∃ d < 16, c = d.digitChar :=
    fun c hc => mem_simple (mem_of_mem_take hc)
  have htrim : trim (id.simple.take n) = id.simple.take n := by
    refine trim_eq_self fun c hc => ?_
    obtain ⟨d, hd, rfl⟩ := hmem c hc
    exact (digitChar_hex d hd).2.1
  have hfilter : (id.simple.take n).filter (fun c => c != '-') = id.simple.take n := by
    refine filter_eq_self.mpr fun c hc => ?_
    obtain ⟨d, hd, rfl⟩ := hmem c hc
    exact bne_iff_ne.mpr (digitChar_hex d hd).2.2.1
  rw [refDigits, htrim, hfilter]
  refine (map_congr_left fun c hc => ?_).trans (map_id _)
  obtain ⟨d, hd, rfl⟩ := hmem c hc
  exact (digitChar_hex d hd).2.2.2

theorem trim_display (id : Uuid) : trim id.display = id.display := by
  refine trim_eq_self fun c hc => ?_
  have hsimple : c ∈ id.simple ∨ c = '-' := by
    unfold Uuid.display at hc
    simp only [mem_append, mem_cons] at hc
    have htake : ∀ a b, c ∈ ((Nat.toDigits 16 id.value).leftpad 32 '0' |>.drop a |>.take b) →
        c ∈ id.simple := fun a b h => mem_of_mem_drop (mem_of_mem_take h)
    rcases hc with (((h | h | h) | h | h) | h | h) | h | h
    · exact .inl (mem_of_mem_take h)
    · exact .inr h
    · exact .inl (htake _ _ h)
    · exact .inr h
    · exact .inl (htake _ _ h)
    · exact .inr h
    · exact .inl (htake _ _ h)
    · exact .inr h
    · exact .inl (mem_of_mem_drop h)
  rcases hsimple with h | rfl
  · obtain ⟨d, hd, rfl⟩ := mem_simple h
    exact (digitChar_hex d hd).2.1
  · decide

/-- The short form of an id is its first eight digits. -/
theorem shortId_display (id : Uuid) : shortId id.display = id.simple.take 8 := by
  have hlen := length_simple id
  have hdigits : id.simple = (Nat.toDigits 16 id.value).leftpad 32 '0' := rfl
  have height : (id.simple.take 8).length = 8 := by
    rw [length_take]
    exact min_eq_left (le_trans (by decide) hlen)
  unfold Uuid.display
  dsimp only
  rw [← hdigits]
  simp only [append_assoc, cons_append]
  have hlong : 8 ≤ (id.simple.take 8 ++ '-' :: ((id.simple.drop 8).take 4 ++ '-' ::
      ((id.simple.drop 12).take 4 ++ '-' :: ((id.simple.drop 16).take 4 ++ '-' ::
        id.simple.drop 20)))).length := by
    rw [length_append, height]
    exact Nat.le_add_right _ _
  rw [shortId, if_pos hlong]
  exact take_left' height

section

variable [UuidText] {kind : RefKind} {input : Str} {ids : List Uuid}
variable {hex : Str}
variable {id : Uuid}

/-- A reference that is no UUID and abbreviates an id is read as its digits. -/
theorem parseRef_digits (hparse : parseStr (trim input) = none)
    (h : Abbreviates input id) : parseRef kind input = .ok (.prefixOf (refDigits input)) := by
  have hdigits : ((trim input).filter fun c => c != '-').map Char.toLower = refDigits input := rfl
  have hempty : (refDigits input).isEmpty = false := by
    rw [isEmpty_eq_false_iff, ← length_pos_iff_ne_nil]
    exact lt_of_lt_of_le (by decide) h.enough
  have htrimmed : (trim input).isEmpty = false := by
    rw [isEmpty_eq_false_iff]
    intro hnil
    rw [refDigits, hnil] at hempty
    exact absurd hempty (by decide)
  have hhex : (refDigits input).all isAsciiHexDigit = true := by
    rw [all_eq_true]
    intro c hc
    have hmem := ( isPrefixOf_iff_prefix.mp h.start).subset hc
    obtain ⟨d, hd, rfl⟩ := mem_simple hmem
    exact (digitChar_hex d hd).1
  unfold parseRef
  dsimp only
  rw [hparse]
  dsimp only
  rw [htrimmed, hdigits, hempty, hhex, if_neg Bool.false_ne_true, if_neg Bool.false_ne_true,
    Bool.not_true, if_neg Bool.false_ne_true, if_neg (not_lt.mpr h.enough),
    if_neg (not_le.mpr h.proper)]

/-- What is read as digits is the digits of the reference, and of the right length. -/
theorem digits_of_parseRef (hparse : parseStr (trim input) = none)
    (h : parseRef kind input = .ok (.prefixOf hex)) : hex = refDigits input ∧
      minPrefixLen ≤ (refDigits input).length ∧ (refDigits input).length < uuidHexLen := by
  have hdigits : ((trim input).filter fun c => c != '-').map Char.toLower = refDigits input := rfl
  unfold parseRef at h
  dsimp only at h
  rw [hparse] at h
  dsimp only at h
  rw [hdigits] at h
  split_ifs at h with _ _ _ hshort hlong
  cases h
  exact ⟨rfl, not_lt.mp hshort, not_le.mp hlong⟩

theorem exact_of_parseRef (hparse : parseStr (trim input) = none) :
    parseRef kind input ≠ .ok (.exact id) := by
  intro h
  unfold parseRef at h
  dsimp only at h
  rw [hparse] at h
  dsimp only at h
  split_ifs at h
  all_goals cases h

/-- The ids a reference abbreviates. -/
def hits (hex : Str) (ids : List Uuid) : List Uuid := ids.filter fun id => hex.isPrefixOf id.simple

section

omit [UuidText]

theorem mem_hits :
    id ∈ hits hex ids ↔ id ∈ ids ∧ hex.isPrefixOf id.simple = true := mem_filter

/-- One id is found when it is the only one. -/
theorem matchPrefix_ok : matchPrefix kind input hex ids = .ok id ↔ hits hex ids = [id] := by
  unfold matchPrefix
  rw [← hits]
  split
  · next hnil => simp [hnil]
  · next id' hone => simp [hone]
  · next hnil hmany =>
    constructor
    · exact fun h => by cases h
    · exact fun h => absurd h (hmany id)

theorem matchPrefix_ambiguous :
    (∃ candidates total, matchPrefix kind input hex ids =
      .error (.ambiguous kind (trim input) candidates total)) ↔ 2 ≤ (hits hex ids).length := by
  unfold matchPrefix
  rw [← hits]
  split
  · next hnil => simp [hnil]
  · next id hone => simp [hone]
  · next hnil hmany =>
    refine ⟨fun _ => ?_, fun _ => ⟨_, _, rfl⟩⟩
    generalize hits hex ids = found at hnil hmany ⊢
    match found with
    | [] => exact absurd rfl hnil
    | [id] => exact absurd rfl (hmany id)
    | _ :: _ :: _ => exact Nat.le_add_left _ _

/-- Exactly one id is the only one there is. -/
theorem hits_eq_singleton (hids : ids.Nodup) :
    hits hex ids = [id] ↔ id ∈ hits hex ids ∧ ∀ id' ∈ hits hex ids, id' = id := by
  constructor
  · intro h
    rw [h]
    exact ⟨mem_singleton_self id, fun id' hid' => mem_singleton.mp hid'⟩
  · rintro ⟨hmem, honly⟩
    have hnodup : (hits hex ids).Nodup := hids.filter _
    have hperm : (hits hex ids).Perm [id] := by
      rw [perm_ext_iff_of_nodup hnodup (nodup_singleton id)]
      intro id'
      rw [mem_singleton]
      exact ⟨honly id', fun h => h ▸ hmem⟩
    exact perm_singleton.mp hperm

theorem two_le_hits (hids : ids.Nodup) :
    2 ≤ (hits hex ids).length ↔ ∃ id ∈ hits hex ids, ∃ id' ∈ hits hex ids, id ≠ id' := by
  have hnodup : (hits hex ids).Nodup := hids.filter _
  generalize hits hex ids = found at hnodup ⊢
  match found with
  | [] => simp
  | [id] => simp
  | a :: b :: rest =>
    refine ⟨fun _ => ⟨a, by simp, b, by simp, ?_⟩, fun _ => Nat.le_add_left _ _⟩
    rintro rfl
    exact absurd hnodup (by simp)

/-- The same ids in another order. -/
theorem matchPrefix_perm {ids' : List Uuid} (h : ids.Perm ids') :
    matchPrefix kind input hex ids' = matchPrefix kind input hex ids := by
  have hperm : (hits hex ids').Perm (hits hex ids) := (h.filter _).symm
  unfold matchPrefix
  rw [← hits, ← hits]
  generalize hits hex ids = found at hperm ⊢
  generalize hits hex ids' = found' at hperm ⊢
  match found with
  | [] => rw [perm_nil.mp hperm]
  | [id] => rw [perm_singleton.mp hperm]
  | a :: b :: rest =>
    have hlen := hperm.length_eq
    match found' with
    | [] => cases hlen
    | [_] => cases hlen
    | a' :: b' :: rest' =>
      -- both lists of candidates are sorted, and have the same members
      have hsorted : (a' :: b' :: rest').mergeSort (fun x y => decide (x.value ≤ y.value)) =
          (a :: b :: rest).mergeSort fun x y => decide (x.value ≤ y.value) := by
        have hpairs : ∀ l : List Uuid, (l.mergeSort fun x y => decide (x.value ≤ y.value)).Pairwise
            fun x y => x.value ≤ y.value := by
          intro l
          have htrans (x y z : Uuid) (hxy : decide (x.value ≤ y.value) = true)
              (hyz : decide (y.value ≤ z.value) = true) :
              decide (x.value ≤ z.value) = true :=
            decide_eq_true (le_trans (of_decide_eq_true hxy) (of_decide_eq_true hyz))
          have htotal (x y : Uuid) :
              (decide (x.value ≤ y.value) || decide (y.value ≤ x.value)) = true := by
            simpa using le_total x.value y.value
          have hsort := pairwise_mergeSort htrans htotal l
          exact hsort.imp fun hle => of_decide_eq_true hle
        refine List.Perm.eq_of_pairwise (fun x y _ _ hxy hyx => ?_) (hpairs _) (hpairs _)
          (((mergeSort_perm _ _).trans hperm).trans (mergeSort_perm _ _).symm)
        cases x
        cases y
        exact congrArg Uuid.mk (le_antisymm hxy hyx)
      dsimp only
      rw [hsorted, hlen]

end

/-- What a reference resolves to among the ids there are. -/
structure Resolution (kind : RefKind) (input : Str) (ids : List Uuid) : Prop where
  complete : ∀ id, parseStr (trim input) = some id → resolveRef kind input ids = .ok id
  found : parseStr (trim input) = none → ∀ id, resolveRef kind input ids = .ok id ↔
    id ∈ ids ∧ Abbreviates input id ∧ ∀ id' ∈ ids, Abbreviates input id' → id' = id
  ambiguous : parseStr (trim input) = none →
    ((∃ candidates total, resolveRef kind input ids =
        .error (.ambiguous kind (trim input) candidates total)) ↔
      ∃ id ∈ ids, ∃ id' ∈ ids, id ≠ id' ∧ Abbreviates input id ∧ Abbreviates input id')
  unordered : ∀ ids', ids.Perm ids' → resolveRef kind input ids' = resolveRef kind input ids

theorem resolveRef_eq_matchPrefix (h : parseRef kind input = .ok (.prefixOf hex)) :
    resolveRef kind input ids = matchPrefix kind input hex ids := by
  unfold resolveRef
  rw [h]
  rfl

/-- A reference that is no UUID is either matched by its digits, or abbreviates nothing. -/
theorem resolveRef_cases (kind : RefKind) (ids : List Uuid)
    (hparse : parseStr (trim input) = none) :
    (resolveRef kind input ids = matchPrefix kind input (refDigits input) ids ∧
      ∀ id, Abbreviates input id ↔ (refDigits input).isPrefixOf id.simple = true) ∨
    ((∃ reason, resolveRef kind input ids = .error (.malformed kind input reason)) ∧
      ∀ id, ¬ Abbreviates input id) := by
  cases href : parseRef kind input with
  | ok parsed =>
    cases parsed with
    | exact id => exact absurd href (exact_of_parseRef hparse)
    | prefixOf hex =>
      obtain ⟨rfl, henough, hproper⟩ := digits_of_parseRef hparse href
      exact .inl ⟨resolveRef_eq_matchPrefix href, fun id => ⟨fun h => h.start,
        fun h => ⟨henough, hproper, h⟩⟩⟩
  | error e =>
    refine .inr ⟨?_, fun id h => ?_⟩
    · have hmalformed : ∃ reason, e = .malformed kind input reason := by
        unfold parseRef at href
        dsimp only at href
        rw [hparse] at href
        dsimp only at href
        split_ifs at href
        all_goals
          cases href
          exact ⟨_, rfl⟩
      obtain ⟨reason, rfl⟩ := hmalformed
      refine ⟨reason, ?_⟩
      unfold resolveRef
      rw [href]
      rfl
    · rw [parseRef_digits hparse h] at href
      cases href

theorem resolution (kind : RefKind) (input : Str) (hids : ids.Nodup) :
    Resolution kind input ids where
  complete id hparse := by
    unfold resolveRef parseRef
    dsimp only
    rw [hparse]
    rfl
  found hparse id := by
    rcases resolveRef_cases kind ids hparse with ⟨heq, habbr⟩ | ⟨⟨_, heq⟩, hnone⟩
    · rw [heq, matchPrefix_ok, hits_eq_singleton hids]
      simp only [mem_hits, habbr, and_imp, and_assoc]
    · rw [heq]
      constructor
      · exact fun h => by cases h
      · exact fun h => absurd h.2.1 (hnone id)
  ambiguous hparse := by
    rcases resolveRef_cases kind ids hparse with ⟨heq, habbr⟩ | ⟨⟨_, heq⟩, hnone⟩
    · rw [heq, matchPrefix_ambiguous, two_le_hits hids]
      simp only [mem_hits, habbr]
      constructor
      · rintro ⟨id, ⟨hid, hp⟩, id', ⟨hid', hp'⟩, hne⟩
        exact ⟨id, hid, id', hid', hne, hp, hp'⟩
      · rintro ⟨id, hid, id', hid', hne, hp, hp'⟩
        exact ⟨id, ⟨hid, hp⟩, id', ⟨hid', hp'⟩, hne⟩
    · rw [heq]
      constructor
      · rintro ⟨_, _, h⟩
        cases h
      · rintro ⟨id, _, _, _, _, h, _⟩
        exact absurd h (hnone id)
  unordered ids' hperm := by
    unfold resolveRef
    cases parseRef kind input with
    | error e => rfl
    | ok parsed =>
      cases parsed with
      | exact id => rfl
      | prefixOf hex => exact matchPrefix_perm hperm

omit [UuidText] in
/-- The short form of an id abbreviates it. -/
theorem abbreviates_shortId (id : Uuid) : Abbreviates (shortId id.display) id := by
  have hlen := length_simple id
  have height : (id.simple.take 8).length = 8 := by
    rw [length_take]
    exact min_eq_left (le_trans (by decide) hlen)
  rw [shortId_display]
  refine ⟨?_, ?_, ?_⟩
  · rw [refDigits_take, height]
    decide
  · rw [refDigits_take, height]
    decide
  · rw [refDigits_take, isPrefixOf_iff_prefix]
    exact take_prefix _ _

/-- Among distinct ids every reference resolves as it should, an id resolves to itself, and its
short form to no other one. -/
theorem resolveRef_resolution (kind : RefKind) (hids : ids.Nodup)
    (hread : ∀ id ∈ ids, parseStr id.display = some id)
    (hlong : ∀ text id, parseStr text = some id → uuidHexLen ≤ text.length) :
    (∀ input, Resolution kind input ids) ∧ ∀ id ∈ ids, resolveRef kind id.display ids = .ok id ∧
      ∀ id', resolveRef kind (shortId id.display) ids = .ok id' → id' = id := by
  refine ⟨fun input => resolution kind input hids, fun id hid => ⟨?_, fun id' h => ?_⟩⟩
  · exact (resolution kind _ hids).complete id (by rw [trim_display, hread id hid])
  · have habbr := abbreviates_shortId id
    have hparse : parseStr (trim (shortId id.display)) = none := by
      cases htext : parseStr (trim (shortId id.display)) with
      | none => rfl
      | some other =>
        have hbound := hlong _ other htext
        have hsublist : (trim (shortId id.display)).Sublist (shortId id.display) :=
          ( rdropWhile_prefix isWhitespace _).sublist.trans (dropWhile_sublist _)
        have height : (shortId id.display).length ≤ 8 := by
          rw [shortId_display]
          exact length_take_le _ _
        have hshort := hsublist.length_le.trans height
        exact absurd (hbound.trans hshort) (by decide)
    obtain ⟨-, -, honly⟩ := ((resolution kind _ hids).found hparse id').mp h
    exact (honly id hid habbr).symm

end

namespace Sample

/-- Two panes with a common start. -/
def paneA : Uuid := ⟨0xaaaa1111000040008000000000000001⟩
def paneB : Uuid := ⟨0xaaab2222000040008000000000000002⟩

/-- The hyphenated form of the two ids. -/
@[reducible]
def twoTexts : UuidText :=
  ⟨fun text => if text = paneA.display then some paneA
    else if text = paneB.display then some paneB else none⟩

theorem resolveRef_resolution_two :
    (∀ input, @Resolution twoTexts .pane input [paneA, paneB]) ∧ ∀ id ∈ [paneA, paneB],
      @resolveRef twoTexts .pane id.display [paneA, paneB] = .ok id ∧
      ∀ id', @resolveRef twoTexts .pane (shortId id.display) [paneA, paneB] = .ok id' →
        id' = id := by
  refine @resolveRef_resolution twoTexts _ .pane (by decide) ?_ ?_
  · intro id hid
    rcases mem_pair.mp hid with rfl | rfl
    · exact if_pos rfl
    · exact (if_neg (by decide)).trans (if_pos rfl)
  · intro text id h
    have htext : text = paneA.display ∨ text = paneB.display := by
      by_contra hnot
      rw [not_or] at hnot
      have hnone : twoTexts.parseStr text = none := (if_neg hnot.1).trans (if_neg hnot.2)
      have hsome : twoTexts.parseStr text = some id := h
      rw [hnone] at hsome
      cases hsome
    rcases htext with rfl | rfl
    · decide
    · decide

/-- A UUID that no pane has is resolved to. -/
theorem resolveRef_unmatched :
    ¬ ∀ (ids : List Uuid) (input : Str) (id : Uuid),
      @resolveRef twoTexts .pane input ids = .ok id ↔ hits (refDigits input) ids = [id] := by
  intro h
  have hok := (h [] paneA.display paneA).mp (by decide)
  exact absurd hok (by decide)

end Sample

end Shux
