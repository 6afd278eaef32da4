/-
# The order of pairs

A pair of a status report sets the field of its key, is skipped, or is refused, whatever the
pairs before it said. Pairs with different keys may therefore change places: the report is
discarded all the same, or it says the same. One pair that breaks a rule discards the report
whole, wherever it stands and whatever stands behind it.
-/

import Shux.Lib.Keyed
import Shux.ProgramStatus.Codec

namespace Shux.ProgramStatus

open Keyed List

/-- The key of a pair, without the blanks around it. -/
def pairKey (pair : List UInt8) : Option (List UInt8) :=
  (pair.idxOf? 0x3d).map fun eq => trim (pair.take eq)

/-- The value of a pair, without the blanks around it. -/
def pairValue (pair : List UInt8) : List UInt8 :=
  match pair.idxOf? 0x3d with
  | some eq => trim (pair.drop (eq + 1))
  | none => []

section

variable [Base64Engine]
variable {key pair payload value : List UInt8} (fields : Fields)

/-- A value that its key refuses: past its limit, an id that is no path, or a text that does not
decode. -/
inductive BreaksRule (key value : List UInt8) : Prop where
  | long (h : Fields.limit key < value.length)
  | badId (hkey : key = utf8 "id") (h : (fromUtf8 value).bind RecordId.parse = none)
  | badTitle (hkey : key = utf8 "title") (hbytes : value.all isValueByte = true)
      (h : ∀ text, decodeText value maxTitleDecoded ≠ .ok text)
  | badMsg (hkey : key = utf8 "msg") (hbytes : value.all isValueByte = true)
      (h : ∀ text, decodeText value maxMsgDecoded ≠ .ok text)

/-- A pair that discards its report: its key is too long, or is a key and refuses the value. -/
def Breaks (pair : List UInt8) : Prop :=
  ∃ key, pairKey pair = some key ∧ key ≠ [] ∧ (maxKeyBytes < key.length ∨
    key.all isAsciiLowercase = true ∧ BreaksRule key (pairValue pair))

/-- What a pair that is not refused does to the fields. -/
inductive Effect where
  | skip
  | state (value : List UInt8)
  | id (value : RecordId)
  | kind (value : Option Kind)
  | progress (value : Option UInt8)
  | app (value : Option String)
  | title (value : Option String)
  | msg (value : Option String)

namespace Effect

section

omit [Base64Engine]

def apply (fields : Fields) : Effect → Fields
  | skip => fields
  | state value => { fields with state := some value }
  | id value => { fields with id := some value }
  | kind value => { fields with kind := value }
  | progress value => { fields with progress := value }
  | app value => { fields with app := value }
  | title value => { fields with title := value }
  | msg value => { fields with msg := value }

/-- The key whose field an effect sets. -/
def slot : Effect → Option String
  | skip => none
  | state _ => some "state"
  | id _ => some "id"
  | kind _ => some "kind"
  | progress _ => some "progress"
  | app _ => some "app"
  | title _ => some "title"
  | msg _ => some "msg"

theorem apply_comm (e e' : Effect) (h : e.slot = none ∨ e.slot ≠ e'.slot) :
    e.apply (e'.apply fields) = e'.apply (e.apply fields) := by
  cases e <;> cases e' <;> first
    | rfl
    | exact absurd h (by simp [slot])

end

end Effect

variable {e : Effect}

/-- The effect of a value made of value bytes. -/
def keepEffect (key value : List UInt8) : Except Reject Effect :=
  let text := (fromUtf8 value).getD ""
  if key = utf8 "state" then .ok (.state value)
  else if key = utf8 "kind" then .ok (.kind (Kind.parse text))
  else if key = utf8 "progress" then .ok (.progress (parseProgress text))
  else if key = utf8 "app" then .ok (.app (parseApp text))
  else if key = utf8 "title" then (decodeText value maxTitleDecoded).map .title
  else if key = utf8 "msg" then (decodeText value maxMsgDecoded).map .msg
  else .ok .skip

def storeEffect (key value : List UInt8) : Except Reject Effect :=
  if Fields.limit key < value.length then
    .error (if key = utf8 "id" then .badId else .valueTooLong)
  else if key = utf8 "id" then
    match (fromUtf8 value).bind RecordId.parse with
    | some id => .ok (.id id)
    | none => .error .badId
  else if !value.all isValueByte then .ok .skip
  else keepEffect key value

def effect (pair : List UInt8) : Except Reject Effect :=
  match pairKey pair with
  | none => .ok .skip
  | some key =>
    if key.isEmpty then .ok .skip
    else if maxKeyBytes < key.length then .error .keyTooLong
    else if !key.all isAsciiLowercase then .ok .skip
    else storeEffect key (pairValue pair)

theorem keep_eq (key value : List UInt8) :
    fields.keep key value = (keepEffect key value).map fun e => e.apply fields := by
  unfold Fields.keep keepEffect
  dsimp only
  repeat' split_ifs
  all_goals first
    | rfl
    | cases decodeText value _ <;> rfl

theorem store_eq (key value : List UInt8) :
    fields.store key value = (storeEffect key value).map fun e => e.apply fields := by
  unfold Fields.store storeEffect
  rw [keep_eq]
  split_ifs
  · rfl
  · rfl
  · cases (fromUtf8 value).bind RecordId.parse with
    | none => rfl
    | some id => rfl
  · rfl
  · rfl

/-- What a pair does depends on the pair alone. -/
theorem take_eq (pair : List UInt8) :
    fields.take pair = (effect pair).map fun e => e.apply fields := by
  unfold Fields.take effect pairKey pairValue
  cases pair.idxOf? 0x3d with
  | none => rfl
  | some eq =>
    dsimp only [Option.map_some]
    rw [store_eq]
    split_ifs
    all_goals rfl

/-- The field a pair sets is the field of its key. -/
theorem slot_of_keepEffect (h : keepEffect key value = .ok e) :
    e.slot = none ∨ e.slot.map utf8 = some key := by
  unfold keepEffect at h
  dsimp only at h
  split_ifs at h with hstate hkind hprogress happ htitle hmsg
  · cases h
    exact .inr (congrArg some hstate.symm)
  · cases h
    exact .inr (congrArg some hkind.symm)
  · cases h
    exact .inr (congrArg some hprogress.symm)
  · cases h
    exact .inr (congrArg some happ.symm)
  · cases htext : decodeText value maxTitleDecoded with
    | error r =>
      rw [htext] at h
      cases h
    | ok text =>
      rw [htext] at h
      cases h
      exact .inr (congrArg some htitle.symm)
  · cases htext : decodeText value maxMsgDecoded with
    | error r =>
      rw [htext] at h
      cases h
    | ok text =>
      rw [htext] at h
      cases h
      exact .inr (congrArg some hmsg.symm)
  · cases h
    exact .inl rfl

theorem slot_of_storeEffect (h : storeEffect key value = .ok e) :
    e.slot = none ∨ e.slot.map utf8 = some key := by
  unfold storeEffect at h
  split_ifs at h with _ hid hbytes
  · cases hparse : (fromUtf8 value).bind RecordId.parse with
    | none =>
      rw [hparse] at h
      cases h
    | some id =>
      rw [hparse] at h
      cases h
      exact .inr (congrArg some hid.symm)
  · cases h
    exact .inl rfl
  · exact slot_of_keepEffect h

theorem slot_of_effect (h : effect pair = .ok e) :
    e.slot = none ∨ e.slot.map utf8 = pairKey pair := by
  unfold effect at h
  cases hkey : pairKey pair with
  | none =>
    rw [hkey] at h
    cases h
    exact .inl rfl
  | some key =>
    rw [hkey] at h
    dsimp only at h
    split_ifs at h with hempty hlong hcase
    · cases h
      exact .inl rfl
    · cases h
      exact .inl rfl
    · exact slot_of_storeEffect h

/-- Pairs without a common key set different fields. -/
theorem slots_apart {pair' : List UInt8} {e' : Effect} (h : Apart pairKey pair pair')
    (he : effect pair = .ok e) (he' : effect pair' = .ok e') :
    e.slot = none ∨ e.slot ≠ e'.slot := by
  by_cases hnone : e.slot = none
  · exact .inl hnone
  · refine .inr fun hsame => ?_
    have hslot := (slot_of_effect he).resolve_left hnone
    have hslot' := (slot_of_effect he').resolve_left (hsame ▸ hnone)
    rcases h with hkey | hne
    · rw [hkey, Option.map_eq_none_iff] at hslot
      exact hnone hslot
    · rw [hsame, hslot'] at hslot
      exact hne hslot.symm

omit [Base64Engine] in
/-- A text is refused or has an effect. -/
theorem map_ne_ok {α β : Type} {f : α → β} {x : Except Reject α} :
    (∀ e, x.map f ≠ .ok e) ↔ ∀ a, x ≠ .ok a := by
  cases x with
  | error r => exact ⟨fun _ => nofun, fun _ => nofun⟩
  | ok a => exact ⟨fun h => absurd rfl (h (f a)), fun h => absurd rfl (h a)⟩

theorem keepEffect_refused :
    (∀ e, keepEffect key value ≠ .ok e) ↔
      key = utf8 "title" ∧ (∀ text, decodeText value maxTitleDecoded ≠ .ok text) ∨
        key = utf8 "msg" ∧ ∀ text, decodeText value maxMsgDecoded ≠ .ok text := by
  have hother (e : Effect) (ht : key ≠ utf8 "title") (hm : key ≠ utf8 "msg") :
      (∀ e', Except.ok (ε := Reject) e ≠ .ok e') ↔
        key = utf8 "title" ∧ (∀ text, decodeText value maxTitleDecoded ≠ .ok text) ∨
          key = utf8 "msg" ∧ ∀ text, decodeText value maxMsgDecoded ≠ .ok text := by
    refine ⟨fun h => absurd rfl (h e), ?_⟩
    rintro (⟨h, -⟩ | ⟨h, -⟩)
    · exact absurd h ht
    · exact absurd h hm
  unfold keepEffect
  dsimp only
  split_ifs with hstate hkind hprogress happ htitle hmsg
  · exact hother _ (by rw [hstate]; decide) (by rw [hstate]; decide)
  · exact hother _ (by rw [hkind]; decide) (by rw [hkind]; decide)
  · exact hother _ (by rw [hprogress]; decide) (by rw [hprogress]; decide)
  · exact hother _ (by rw [happ]; decide) (by rw [happ]; decide)
  · rw [map_ne_ok]
    have hne : key ≠ utf8 "msg" := by
      rw [htitle]
      decide
    exact ⟨fun h => .inl ⟨htitle, h⟩, fun h => h.elim And.right fun h => absurd h.1 hne⟩
  · rw [map_ne_ok]
    exact ⟨fun h => .inr ⟨hmsg, h⟩, fun h => h.elim (fun h => absurd h.1 htitle) And.right⟩
  · exact hother _ htitle hmsg

theorem storeEffect_refused : (∀ e, storeEffect key value ≠ .ok e) ↔ BreaksRule key value := by
  unfold storeEffect
  split_ifs with hlong hshort hid hbytes
  · exact ⟨fun _ => .long hlong, fun _ => nofun⟩
  · exact ⟨fun _ => .long hlong, fun _ => nofun⟩
  · cases hparse : (fromUtf8 value).bind RecordId.parse with
    | none => exact ⟨fun _ => .badId hid hparse, fun _ => nofun⟩
    | some id =>
      refine ⟨fun h => absurd rfl (h (.id id)), fun h => ?_⟩
      cases h with
      | long h => exact absurd h hlong
      | badId hkey h =>
        rw [hparse] at h
        cases h
      | badTitle hkey | badMsg hkey => exact absurd (hid.symm.trans hkey) (by decide)
  · refine ⟨fun h => absurd rfl (h .skip), fun h => ?_⟩
    cases h with
    | long h => exact absurd h hlong
    | badId hkey => exact absurd hkey hid
    | badTitle _ h =>
      rw [h] at hbytes
      cases hbytes
    | badMsg _ h =>
      rw [h] at hbytes
      cases hbytes
  · have hall : value.all isValueByte = true := by
      rw [Bool.not_eq_true', Bool.not_eq_false] at hbytes
      exact hbytes
    rw [keepEffect_refused]
    constructor
    · rintro (⟨hkey, h⟩ | ⟨hkey, h⟩)
      · exact .badTitle hkey hall h
      · exact .badMsg hkey hall h
    · rintro (h | ⟨hkey, h⟩ | ⟨hkey, -, h⟩ | ⟨hkey, -, h⟩)
      · exact absurd h hlong
      · exact absurd hkey hid
      · exact .inl ⟨hkey, h⟩
      · exact .inr ⟨hkey, h⟩

/-- The pairs without an effect are those that break a rule. -/
theorem effect_refused : (∀ e, effect pair ≠ .ok e) ↔ Breaks pair := by
  have hskip : ¬∀ e, Except.ok (ε := Reject) Effect.skip ≠ .ok e := fun h => h .skip rfl
  unfold effect Breaks
  cases hkey : pairKey pair with
  | none =>
    refine ⟨fun h => absurd h hskip, ?_⟩
    rintro ⟨key, h, -⟩
    cases h
  | some key =>
    dsimp only
    split_ifs with hempty hlong hcase
    · refine ⟨fun h => absurd h hskip, ?_⟩
      rintro ⟨_, ⟨⟩, hne, -⟩
      exact absurd (List.isEmpty_iff.mp hempty) hne
    · have hne : key ≠ [] := fun h => hempty (List.isEmpty_iff.mpr h)
      exact ⟨fun _ => ⟨key, rfl, hne, .inl hlong⟩, fun _ => nofun⟩
    · refine ⟨fun h => absurd h hskip, ?_⟩
      rintro ⟨_, ⟨⟩, -, h | ⟨hall, -⟩⟩
      · exact absurd h hlong
      · rw [hall] at hcase
        cases hcase
    · have hne : key ≠ [] := fun h => hempty (List.isEmpty_iff.mpr h)
      have hall : key.all isAsciiLowercase = true := by
        rw [Bool.not_eq_true', Bool.not_eq_false] at hcase
        exact hcase
      rw [storeEffect_refused]
      refine ⟨fun h => ⟨key, rfl, hne, .inr ⟨hall, h⟩⟩, ?_⟩
      rintro ⟨_, ⟨⟩, -, h | ⟨-, h⟩⟩
      · exact absurd h hlong
      · exact h

/-- Taking a pair has its effect, or is refused. -/
theorem stepwise_take : Stepwise Fields.take
    (fun fields pair => ((effect pair).map fun e => e.apply fields).toOption.getD fields)
    fun pair => ¬Breaks pair where
  accept fields pair h := by
    rw [take_eq]
    cases he : effect pair with
    | error r =>
      refine absurd (effect_refused.mp fun e heq => ?_) h
      rw [he] at heq
      cases heq
    | ok e => rfl
  refuse fields pair h := by
    rw [not_not, ← effect_refused] at h
    rw [take_eq]
    cases he : effect pair with
    | error r => exact ⟨r, rfl⟩
    | ok e => exact absurd he (h e)

theorem effects_comm {pair' : List UInt8} (h : Apart pairKey pair pair') (fields : Fields) :
    let f := fun (fields : Fields) pair =>
      ((effect pair).map fun e => e.apply fields).toOption.getD fields
    f (f fields pair') pair = f (f fields pair) pair' := by
  dsimp only
  cases he : effect pair with
  | error r => rfl
  | ok e =>
    cases he' : effect pair' with
    | error r => rfl
    | ok e' => exact e.apply_comm fields e' (slots_apart h he he')

section

omit [Base64Engine]

theorem length_intercalate_colon (pairs : List (List UInt8)) (h : pairs ≠ []) :
    ([0x3a].intercalate pairs).length + 1 = (pairs.map length).sum + pairs.length := by
  induction pairs with
  | nil => exact absurd rfl h
  | cons pair rest ih =>
    cases rest with
    | nil => rw [intercalate_singleton, map_singleton, sum_singleton, length_singleton]
    | cons next rest =>
      have hrest := ih (cons_ne_nil next rest)
      rw [intercalate_cons_cons, length_append, length_append,
        length_singleton, map_cons, sum_cons, length_cons]
      omega

/-- Pairs that change places are as long as before. -/
theorem length_of_regrouped {payload' : List UInt8}
    (h : Regrouped pairKey (payload.splitOn 0x3a) (payload'.splitOn 0x3a)) :
    payload.length = payload'.length := by
  have hlength := length_intercalate_colon _ (splitOn_ne_nil 0x3a payload)
  have hlength' := length_intercalate_colon _ (splitOn_ne_nil 0x3a payload')
  rw [intercalate_splitOn] at hlength hlength'
  have hsum := (h.perm.map length).sum_eq
  have hcount := h.perm.length_eq
  omega

/-- A query is its own only pair. -/
theorem eq_of_query {payload' : List UInt8} (hquery : trim payload' = [0x3f])
    (h : Regrouped pairKey (payload.splitOn 0x3a) (payload'.splitOn 0x3a)) :
    payload = payload' := by
  have hcolon : (0x3a : UInt8) ∉ payload' := fun hmem => by
    have hkept := mem_trim hmem (by decide)
    rw [hquery] at hkept
    exact absurd hkept (by decide)
  have hpairs := h.perm
  rw [splitOn_eq_singleton hcolon, perm_singleton] at hpairs
  have hjoin : intercalate [0x3a] (payload.splitOn 0x3a) = payload := intercalate_splitOn 0x3a
  rw [hpairs, intercalate_singleton] at hjoin
  exact hjoin.symm

end

/-- What is left of a payload that is no query and not too long. -/
theorem decode_eq_takeAll (hquery : trim payload ≠ [0x3f])
    (hlength : ¬maxPayloadBytes < payload.length) :
    decode payload = Fields.takeAll payload >>= fun fields =>
      fields.intoReport >>= fun report => return .report report := by
  unfold decode
  rw [if_neg hlength, if_neg hquery]

/-- A payload with a pair that breaks a rule is discarded, whatever its other pairs say. -/
theorem decode_error_of_breaks (hquery : trim payload ≠ [0x3f])
    (hpair : pair ∈ payload.splitOn 0x3a) (hbreaks : Breaks pair) :
    ∃ r, decode payload = .error r := by
  by_cases hlength : maxPayloadBytes < payload.length
  · exact ⟨.payloadTooLong, if_pos hlength⟩
  · obtain ⟨r, hr⟩ := stepwise_take.foldlM_error hpair (not_not.mpr hbreaks) Fields.default
    rw [decode_eq_takeAll hquery hlength, Fields.takeAll, hr]
    exact ⟨r, rfl⟩

theorem decode_regrouped {payload' : List UInt8} (hquery : trim payload ≠ [0x3f])
    (h : Regrouped pairKey (payload.splitOn 0x3a) (payload'.splitOn 0x3a)) :
    (∃ r r', decode payload = .error r ∧ decode payload' = .error r') ∨
      ∃ report, decode payload = .ok (.report report) ∧ decode payload' = .ok (.report report) := by
  have hsame := length_of_regrouped h
  by_cases hlength : maxPayloadBytes < payload.length
  · exact .inl ⟨.payloadTooLong, .payloadTooLong, if_pos hlength, if_pos (hsame ▸ hlength)⟩
  · have hquery' : trim payload' ≠ [0x3f] := fun hq => hquery (eq_of_query hq h ▸ hq)
    rw [decode_eq_takeAll hquery hlength, decode_eq_takeAll hquery' (hsame ▸ hlength),
      Fields.takeAll, Fields.takeAll]
    rcases stepwise_take.foldlM_regrouped h (fun _ _ => effects_comm) Fields.default with
      ⟨r, r', hr, hr'⟩ | ⟨fields, hfields, hfields'⟩
    · rw [hr, hr']
      exact .inl ⟨r, r', rfl, rfl⟩
    · rw [hfields, hfields']
      cases hreport : fields.intoReport with
      | error r =>
        refine .inl ⟨r, r, ?_, ?_⟩
        all_goals exact congrArg (· >>= fun report => return Message.report report) hreport
      | ok report =>
        refine .inr ⟨report, ?_, ?_⟩
        all_goals exact congrArg (· >>= fun report => return Message.report report) hreport

/-- Pairs with different keys may change places, and one bad pair discards its report. -/
theorem decode_ignores_pair_order :
    (∀ payload payload', trim payload ≠ [0x3f] →
      Regrouped pairKey (payload.splitOn 0x3a) (payload'.splitOn 0x3a) →
      (∃ r r', decode payload = .error r ∧ decode payload' = .error r') ∨
        ∃ report, decode payload = .ok (.report report) ∧
          decode payload' = .ok (.report report)) ∧
    ∀ payload pair, trim payload ≠ [0x3f] → pair ∈ payload.splitOn 0x3a → Breaks pair →
      ∃ r, decode payload = .error r :=
  ⟨fun _ _ => decode_regrouped, fun _ _ => decode_error_of_breaks⟩

end

theorem decode_ignores_pair_order_swapped :
    (∃ report, @decode standardEngine (utf8 "state=done:app=vi") = .ok (.report report) ∧
      @decode standardEngine (utf8 "app=vi:state=done") = .ok (.report report)) ∧
    ∃ r, @decode standardEngine (utf8 "state=done:id=/:id=x") = .error r := by
  have hpairs : Regrouped pairKey ((utf8 "state=done:app=vi").splitOn 0x3a)
      ((utf8 "app=vi:state=done").splitOn 0x3a) :=
    Regrouped.swap (a := utf8 "state=done") (b := utf8 "app=vi") (.inr (by decide))
  have hbreaks : @Breaks standardEngine (utf8 "id=/") :=
    ⟨utf8 "id", by decide, by decide, .inr ⟨by decide,
      @BreaksRule.badId standardEngine _ _ rfl (by decide)⟩⟩
  refine ⟨?_, (@decode_ignores_pair_order standardEngine).2 (utf8 "state=done:id=/:id=x")
    (utf8 "id=/") (by decide) (by decide) hbreaks⟩
  rcases (@decode_ignores_pair_order standardEngine).1 _ _ (by decide) hpairs with
    ⟨r, -, hr, -⟩ | h
  · have hok : @decode standardEngine (utf8 "state=done:app=vi") =
        .ok (.report (.set none ⟨.done, none, none, some "vi", none, none⟩)) := by rfl
    rw [hok] at hr
    cases hr
  · exact h

end Shux.ProgramStatus
