/-
# Reports survive the wire

Encoding a report that keeps the rules fits a payload, and decoding gives the report back;
and every report decoded from any payload keeps the rules. The two directions meet: whatever
decodes can be encoded again without loss.

The pairs of a payload are taken one after another, so appending a pair to a payload stores
one more value. Each key then needs one fact: storing what the encoder writes for a value
gives that value. In the other direction every value that is stored keeps the rule of its
key, whatever the pairs were.
-/

import Shux.Lib.Base64
import Shux.ProgramStatus.Wire

namespace Shux.ProgramStatus

open Base64Engine (encode)
open List

variable {b : UInt8}

/-- What the codec relies on in the base64 engine: it decodes what it encoded, and pads its
output, of letters of the standard alphabet, to whole quanta of four. -/
structure Base64Engine.Standard [Base64Engine] : Prop where
  decode_encode : ∀ bytes, Base64Engine.decode (encode bytes) = some bytes
  length_encode : ∀ bytes, (encode bytes).length = 4 * ((bytes.length + 2) / 3)
  padded : ∀ bytes, ∃ body pad, encode bytes = body ++ List.replicate pad 0x3d ∧ pad ≤ 2 ∧
    ∀ b ∈ body, isAsciiAlphanumeric b = true ∨ b = 0x2b ∨ b = 0x2f

theorem not_isBlank_of_isValueByte (h : isValueByte b = true) : isBlank b = false := by
  rw [← Bool.not_eq_true]
  intro hblank
  rcases (Bool.or_eq_true _ _).mp hblank with heq | heq
  all_goals
    obtain rfl := eq_of_beq heq
    exact absurd h (by decide)

theorem ne_colon_of_isValueByte (h : isValueByte b = true) : b ≠ 0x3a := by
  rintro rfl
  exact absurd h (by decide)

theorem isValueByte_of_isIdByte (h : isIdByte b = true) : isValueByte b = true := by
  unfold isIdByte at h
  unfold isValueByte
  simp only [Bool.or_eq_true] at h ⊢
  tauto

theorem isIdByte_of_isAsciiLowercase (h : isAsciiLowercase b = true) : isIdByte b = true := by
  unfold isAsciiLowercase at h
  unfold isIdByte isAsciiAlphanumeric
  simp only [Bool.or_eq_true]
  tauto

theorem trim_eq_self {bytes : List UInt8} (h : ∀ b ∈ bytes, isBlank b = false) :
    trim bytes = bytes := by
  unfold trim
  rw [dropWhile_eq_self_iff.mpr, rdropWhile_eq_self_iff.mpr]
  · intro hne
    rw [h _ (getLast_mem hne)]
    exact Bool.false_ne_true
  · intro hpos
    rw [h _ (getElem_mem hpos)]
    exact Bool.false_ne_true

/-- Trimming keeps every byte that is no blank. -/
theorem mem_trim {bytes : List UInt8} (h : b ∈ bytes) (hb : isBlank b = false) :
    b ∈ trim bytes := by
  have hdrop (l : List UInt8) (hl : b ∈ l) : b ∈ l.dropWhile isBlank := by
    rw [← takeWhile_append_dropWhile (p := isBlank) (l := l), mem_append] at hl
    refine hl.resolve_left fun htake => ?_
    rw [mem_takeWhile_imp htake] at hb
    cases hb
  unfold trim List.rdropWhile
  rw [mem_reverse]
  exact hdrop _ (mem_reverse.mpr (hdrop _ h))

theorem mem_of_mem_intercalate {sep c : Char} {segments : List (List Char)}
    (h : c ∈ [sep].intercalate segments) : c = sep ∨ ∃ segment ∈ segments, c ∈ segment := by
  induction segments with
  | nil => cases h
  | cons first rest ih =>
    cases rest with
    | nil =>
      rw [intercalate_singleton] at h
      exact Or.inr ⟨first, mem_cons_self, h⟩
    | cons second rest =>
      rw [intercalate_cons_cons, mem_append, mem_append] at h
      rcases h with (h | h) | h
      · exact Or.inr ⟨first, mem_cons_self, h⟩
      · exact Or.inl (mem_singleton.mp h)
      · refine (ih h).imp_right ?_
        rintro ⟨segment, hsegment, hc⟩
        exact ⟨segment, mem_cons_of_mem _ hsegment, hc⟩

/-- Paths are made of id bytes and separators. -/
theorem RecordId.isValueByte_of_mem (id : RecordId) (h : b ∈ utf8 id.asStr) :
    isValueByte b = true := by
  rw [utf8_eq_flatMap, mem_flatMap] at h
  obtain ⟨c, hc, hb⟩ := h
  rw [asStr, ← id.eq_intercalate] at hc
  rcases mem_of_mem_intercalate hc with rfl | ⟨segment, hsegment, hc⟩
  · rw [show String.utf8EncodeChar '/' = [0x2f] by decide, mem_singleton] at hb
    rw [hb]
    decide
  · have hvalid := id.segments_valid segment hsegment
    unfold validSegment at hvalid
    rw [Bool.and_eq_true] at hvalid
    refine isValueByte_of_isIdByte (all_eq_true.mp hvalid.2 b ?_)
    rw [utf8_ofList]
    exact mem_flatMap.mpr ⟨c, hc, hb⟩

/-- A key of the protocol. -/
def IsKey (key : String) : Prop :=
  (utf8 key).isEmpty = false ∧ ¬maxKeyBytes < (utf8 key).length ∧
    (utf8 key).all isAsciiLowercase = true

instance (key : String) : Decidable (IsKey key) := inferInstanceAs (Decidable (_ ∧ _ ∧ _))

namespace IsKey

variable {key : String}

theorem isValueByte (h : IsKey key) (hb : b ∈ utf8 key) : isValueByte b = true :=
  isValueByte_of_isIdByte (isIdByte_of_isAsciiLowercase (all_eq_true.mp h.2.2 b hb))

theorem idxOf (h : IsKey key) (value : List UInt8) :
    (utf8 key ++ 0x3d :: value).idxOf? 0x3d = some (utf8 key).length := by
  have hnone : (utf8 key).idxOf? 0x3d = none := by
    rw [List.idxOf?_eq_none_iff]
    intro hmem
    exact absurd (all_eq_true.mp h.2.2 _ hmem) (by decide)
  unfold List.idxOf? at hnone ⊢
  rw [List.findIdx?_append, hnone, List.findIdx?_cons]
  show some (0 + _) = _
  rw [Nat.zero_add]

/-- Taking a pair stores its value. -/
theorem take [Base64Engine] (h : IsKey key) (fields : Fields) {value : List UInt8}
    (hvalue : ∀ b ∈ value, ProgramStatus.isValueByte b = true) :
    fields.take (utf8 key ++ 0x3d :: value) = fields.store (utf8 key) value := by
  have hkey : trim (utf8 key) = utf8 key :=
    trim_eq_self fun b hb => not_isBlank_of_isValueByte (h.isValueByte hb)
  have hdrop : (utf8 key ++ 0x3d :: value).drop ((utf8 key).length + 1) = value := by
    rw [← drop_drop, drop_left, drop_one, tail_cons]
  unfold Fields.take
  rw [h.idxOf]
  dsimp only
  rw [take_left, hdrop, hkey, trim_eq_self fun b hb => not_isBlank_of_isValueByte (hvalue b hb),
    if_neg (by rw [h.1]; exact Bool.false_ne_true), if_neg h.2.1, if_neg]
  rw [h.2.2]
  decide

theorem splitOn (h : IsKey key) {value : List UInt8}
    (hvalue : ∀ b ∈ value, ProgramStatus.isValueByte b = true) :
    (utf8 key ++ 0x3d :: value).splitOn 0x3a = [utf8 key ++ 0x3d :: value] := by
  refine splitOn_eq_singleton fun hmem => ?_
  rcases mem_append.mp hmem with hmem | hmem
  · exact ne_colon_of_isValueByte (h.isValueByte hmem) rfl
  · rcases mem_cons.mp hmem with heq | hmem
    · exact absurd heq (by decide)
    · exact ne_colon_of_isValueByte (hvalue _ hmem) rfl

end IsKey

section Codec

variable [Base64Engine]
variable {report : Report}

/-- A payload so far, with what taking its pairs gives. -/
structure Spells (out : List UInt8) (fields : Fields) : Prop where
  mem_eq : 0x3d ∈ out
  legible : ∀ b ∈ out, isValueByte b = true ∨ b = 0x3a
  takeAll : Fields.takeAll out = .ok fields

omit [Base64Engine] in
theorem legible_push {out : List UInt8} (hout : ∀ b ∈ out, isValueByte b = true ∨ b = 0x3a)
    {key : String} (hkey : IsKey key) {value : List UInt8}
    (hvalue : ∀ b ∈ value, isValueByte b = true) :
    ∀ b ∈ push out key value, isValueByte b = true ∨ b = 0x3a := by
  refine forall_mem_append.mpr ⟨?_, forall_mem_append.mpr ⟨fun b hb => .inl (hkey.isValueByte hb),
    forall_mem_cons.mpr ⟨.inl (by decide), fun b hb => .inl (hvalue b hb)⟩⟩⟩
  split
  · exact hout
  · exact forall_mem_append.mpr ⟨hout, fun b hb => .inr (mem_singleton.mp hb)⟩

theorem spells_push_nil (key : String) (h : IsKey key) {value : List UInt8}
    (hvalue : ∀ b ∈ value, isValueByte b = true) {fields : Fields}
    (hstore : Fields.default.store (utf8 key) value = .ok fields) :
    Spells (push [] key value) fields where
  mem_eq := mem_append_right _ (mem_append_right _ mem_cons_self)
  legible := legible_push (forall_mem_nil _) h hvalue
  takeAll := by
    unfold Fields.takeAll push
    rw [if_pos isEmpty_nil, nil_append, h.splitOn hvalue, foldlM_cons, h.take _ hvalue, hstore]
    rfl

namespace Spells

variable {out : List UInt8} {fields : Fields}

/-- Appending a pair stores its value. -/
theorem push (h : Spells out fields) {key : String} (hkey : IsKey key) {value : List UInt8}
    (hvalue : ∀ b ∈ value, isValueByte b = true) {fields' : Fields}
    (hstore : fields.store (utf8 key) value = .ok fields') :
    Spells (push out key value) fields' := by
  have hne : ¬out.isEmpty = true := by
    rw [List.isEmpty_iff]
    rintro rfl
    cases h.mem_eq
  refine ⟨mem_append_right _ (mem_append_right _ mem_cons_self),
    legible_push h.legible hkey hvalue, ?_⟩
  have htake := h.takeAll
  unfold Fields.takeAll at htake ⊢
  unfold ProgramStatus.push
  rw [if_neg hne, append_assoc, singleton_append, splitOn_append_cons_self,
    hkey.splitOn hvalue, foldlM_append, htake]
  show (do
    let fields ← Except.ok fields
    List.foldlM Fields.take fields [utf8 key ++ 0x3d :: value]) = _
  show List.foldlM Fields.take fields [utf8 key ++ 0x3d :: value] = _
  rw [foldlM_cons, hkey.take _ hvalue, hstore]
  rfl

/-- Appending an optional pair stores its value if there is one. -/
theorem pushSome (h : Spells out fields) {key : String} (hkey : IsKey key) {α : Type}
    (value : Option α) (encode : α → List UInt8) (update : Option α → Fields)
    (hnone : update none = fields)
    (hsome : ∀ a, value = some a → (∀ b ∈ encode a, isValueByte b = true) ∧
      fields.store (utf8 key) (encode a) = .ok (update (some a))) :
    Spells (pushSome out key (value.map encode)) (update value) := by
  cases value with
  | none =>
    rw [hnone]
    exact h
  | some a => exact h.push hkey (hsome a rfl).1 (hsome a rfl).2

/-- A payload of pairs is no query. -/
theorem trim_ne (h : Spells out fields) : trim out ≠ [0x3f] := by
  intro heq
  have hmem := mem_trim h.mem_eq (by decide)
  rw [heq] at hmem
  exact absurd hmem (by decide)

theorem decode_eq (h : Spells out fields) (hlength : out.length ≤ maxPayloadBytes)
    (hreport : fields.intoReport = .ok report) : decode out = .ok (.report report) := by
  unfold decode
  rw [if_neg (Nat.not_lt.mpr hlength), if_neg h.trim_ne, h.takeAll]
  show (do
    let report ← fields.intoReport
    return Message.report report) = _
  rw [hreport]
  rfl

end Spells

/-- Storing a value other than an id, within its limit. -/
theorem store_eq_keep (fields : Fields) (key : String) {value : List UInt8}
    (hkey : utf8 key ≠ utf8 "id") (hvalue : ∀ b ∈ value, isValueByte b = true)
    (hlength : value.length ≤ Fields.limit (utf8 key)) :
    fields.store (utf8 key) value = fields.keep (utf8 key) value := by
  unfold Fields.store
  rw [if_neg (Nat.not_lt.mpr hlength), if_neg hkey, if_neg]
  rw [all_eq_true.mpr hvalue]
  decide

/-- What storing an optional value needs: its bytes are value bytes, and the store succeeds. -/
def Stores (fields : Fields) (key : String) (value : List UInt8) (fields' : Fields) : Prop :=
  (∀ b ∈ value, isValueByte b = true) ∧ fields.store (utf8 key) value = .ok fields'

theorem stores_state (fields : Fields) (state : String)
    (hvalue : (utf8 state).all isValueByte = true) (hlength : (utf8 state).length ≤ usizeMax) :
    Stores fields "state" (utf8 state) { fields with state := some (utf8 state) } := by
  have hbytes := all_eq_true.mp hvalue
  exact ⟨hbytes, store_eq_keep fields "state" (by decide) hbytes hlength⟩

theorem stores_id (fields : Fields) (id : RecordId) :
    Stores fields "id" (utf8 id.asStr) { fields with id := some id } := by
  refine ⟨fun b hb => id.isValueByte_of_mem hb, ?_⟩
  have hlimit : ¬Fields.limit (utf8 "id") < (utf8 id.asStr).length := Nat.not_lt.mpr id.length_path
  unfold Fields.store
  rw [if_neg hlimit, if_pos rfl, fromUtf8_utf8]
  dsimp only [Option.bind_some]
  rw [id.parse_asStr]

theorem stores_kind (fields : Fields) (kind : Kind) :
    Stores fields "kind" (utf8 kind.asStr) { fields with kind := some kind } := by
  have hall : (utf8 kind.asStr).all isValueByte = true := by cases kind <;> decide
  have hlength : (utf8 kind.asStr).length ≤ Fields.limit (utf8 "kind") := by
    cases kind <;> exact of_decide_eq_true rfl
  have hparse : Kind.parse kind.asStr = some kind := by cases kind <;> decide
  have hbytes := all_eq_true.mp hall
  refine ⟨hbytes, (store_eq_keep fields "kind" (by decide) hbytes hlength).trans ?_⟩
  show Except.ok { fields with kind := Kind.parse ((fromUtf8 (utf8 kind.asStr)).getD "") } = _
  rw [fromUtf8_utf8, Option.getD_some, hparse]

omit [Base64Engine] in
/-- Percentages are written in at most three digits, and read back. -/
theorem parseProgress_repr : ∀ n < 101, (utf8 (Nat.repr n)).all isValueByte = true ∧
    (utf8 (Nat.repr n)).length ≤ 3 ∧ parseProgress (Nat.repr n) = some (UInt8.ofNat n) := by
  decide +kernel

theorem stores_progress (fields : Fields) {progress : UInt8} (h : progress ≤ 100) :
    Stores fields "progress" (utf8 (Nat.repr progress.toNat))
      { fields with progress := some progress } := by
  obtain ⟨hall, hlength, hparse⟩ := parseProgress_repr progress.toNat
    (Nat.lt_succ_of_le (UInt8.le_iff_toNat_le.mp h))
  rw [UInt8.ofNat_toNat] at hparse
  have hbytes := all_eq_true.mp hall
  refine ⟨hbytes, (store_eq_keep fields "progress" (by decide) hbytes
    (Nat.le_trans hlength (show 3 ≤ usizeMax by decide))).trans ?_⟩
  show Except.ok { fields with
    progress := parseProgress ((fromUtf8 (utf8 (Nat.repr progress.toNat))).getD "") } = _
  rw [fromUtf8_utf8, Option.getD_some, hparse]

theorem stores_app (fields : Fields) {app : String} (hne : 1 ≤ (utf8 app).length)
    (hlength : (utf8 app).length ≤ maxAppBytes) (hid : ∀ b ∈ utf8 app, isIdByte b = true) :
    Stores fields "app" (utf8 app) { fields with app := some app } := by
  have hbytes : ∀ b ∈ utf8 app, isValueByte b = true := fun b hb =>
    isValueByte_of_isIdByte (hid b hb)
  refine ⟨hbytes, (store_eq_keep fields "app" (by decide) hbytes hlength).trans ?_⟩
  show Except.ok { fields with app := parseApp ((fromUtf8 (utf8 app)).getD "") } = _
  rw [fromUtf8_utf8, Option.getD_some, parseApp, if_pos]
  rw [all_eq_true.mpr hid, Bool.and_true, Bool.not_eq_true', ← Bool.not_eq_true, List.isEmpty_iff]
  rintro hnil
  rw [hnil] at hne
  cases hne

variable (hstandard : Base64Engine.Standard)
include hstandard

theorem isValueByte_of_mem_encode (bytes : List UInt8) :
    ∀ b ∈ encode bytes, isValueByte b = true := by
  obtain ⟨body, pad, heq, -, hbody⟩ := hstandard.padded bytes
  intro b hb
  rw [heq, mem_append] at hb
  rcases hb with hb | hb
  · unfold isValueByte
    rcases hbody b hb with h | rfl | rfl
    · rw [h]
      rfl
    · decide
    · decide
  · rw [eq_of_mem_replicate hb]
    decide

/-- The engine's padding completes the last quantum. -/
theorem badPadding_encode (bytes : List UInt8) : badPadding (encode bytes) = false := by
  obtain ⟨body, pad, heq, hpad, hbody⟩ := hstandard.padded bytes
  have hnone : body.idxOf? 0x3d = none := by
    rw [List.idxOf?_eq_none_iff]
    intro hmem
    rcases hbody _ hmem with h | h | h
    all_goals exact absurd h (by decide)
  unfold badPadding
  split
  · next i hi =>
    have hi : i = body.length := by
      rw [heq] at hi
      unfold List.idxOf? at hi hnone
      rw [List.findIdx?_append, hnone, Option.none_or] at hi
      cases pad with
      | zero => cases hi
      | succ pad =>
        rw [replicate_succ, List.findIdx?_cons] at hi
        have hi : some (0 + body.length) = some i := hi
        rw [Nat.zero_add] at hi
        exact (Option.some.inj hi).symm
    have hlength : (encode bytes).length = body.length + pad := by
      rw [heq, length_append, length_replicate]
    have hmod : (encode bytes).length % 4 = 0 := by rw [hstandard.length_encode, Nat.mul_mod_right]
    rw [Bool.or_eq_false_iff, bne_eq_false_iff_eq, decide_eq_false_iff_not]
    omega
  · rfl

theorem decodeText_encode {limit : Nat} {text : String} (h : ValidText limit text) :
    decodeText (encode (utf8 text)) limit = .ok (some text) := by
  have hne : ¬(encode (utf8 text)).isEmpty = true := by
    rw [List.isEmpty_iff]
    intro hnil
    have hbytes := hstandard.decode_encode (utf8 text)
    have hlength := hstandard.length_encode (utf8 text)
    rw [hnil, length_nil] at hlength
    have : utf8 text = [] := length_eq_zero_iff.mp (by omega)
    exact h.ne_empty (utf8_injective this)
  have hcontrol : ¬text.toList.any isControl = true := by
    rw [any_eq_true]
    rintro ⟨c, hc, hcontrol⟩
    rw [h.control c hc] at hcontrol
    cases hcontrol
  have hempty : ¬text.isEmpty = true := fun hempty => h.ne_empty (String.isEmpty_iff.mp hempty)
  unfold decodeText
  rw [if_neg hne, if_neg (by rw [badPadding_encode hstandard]; decide), hstandard.decode_encode]
  dsimp only
  rw [if_neg (Nat.not_lt.mpr h.length), fromUtf8_utf8]
  dsimp only
  rw [if_neg hcontrol, if_neg hempty]

/-- An encoded text is a third longer than its bytes, in whole quanta. -/
theorem length_encode_le {limit : Nat} {text : String} (h : ValidText limit text) :
    (encode (utf8 text)).length ≤ 4 * ((limit + 2) / 3) := by
  have := h.length
  rw [hstandard.length_encode]
  omega

theorem stores_title (fields : Fields) {title : String} (h : ValidText maxTitleDecoded title) :
    Stores fields "title" (encode (utf8 title)) { fields with title := some title } := by
  have hbytes := isValueByte_of_mem_encode hstandard (utf8 title)
  refine ⟨hbytes, (store_eq_keep fields "title" (by decide) hbytes
    (length_encode_le hstandard h)).trans ?_⟩
  unfold Fields.keep
  dsimp only
  rw [decodeText_encode hstandard h]
  rfl

theorem stores_msg (fields : Fields) {msg : String} (h : ValidText maxMsgDecoded msg) :
    Stores fields "msg" (encode (utf8 msg)) { fields with msg := some msg } := by
  have hbytes := isValueByte_of_mem_encode hstandard (utf8 msg)
  refine ⟨hbytes, (store_eq_keep fields "msg" (by decide) hbytes
    (length_encode_le hstandard h)).trans ?_⟩
  unfold Fields.keep
  dsimp only
  rw [decodeText_encode hstandard h]
  rfl

/-! ## From a report to its payload and back -/

section

omit hstandard

/-- The fields a report is written as. -/
def fieldsOf : Report → Fields
  | .clear id => ⟨some (utf8 "clear"), id, none, none, none, none, none⟩
  | .set id record =>
    ⟨some (utf8 record.state.asStr), id, record.kind, record.progress, record.app, record.title,
      record.msg⟩

theorem spells_state {state : String} (hvalue : (utf8 state).all isValueByte = true)
    (hlength : (utf8 state).length ≤ usizeMax) (id : Option RecordId) :
    Spells (pushSome (push [] "state" (utf8 state)) "id" (id.map fun id => utf8 id.asStr))
      ⟨some (utf8 state), id, none, none, none, none, none⟩ := by
  obtain ⟨hbytes, hstore⟩ := stores_state Fields.default state hvalue hlength
  have hstate := spells_push_nil "state" (by decide) hbytes hstore
  exact hstate.pushSome (by decide) id _ (fun id => ⟨some (utf8 state), id, none, none, none, none,
    none⟩) rfl fun id _ => stores_id _ id

end

theorem spells_encodePayload (h : report.Valid) :
    Spells (encodePayload report) (fieldsOf report) := by
  cases report with
  | clear id => exact spells_state (by decide) (by decide) id
  | set id record =>
    have hstate : (utf8 record.state.asStr).all isValueByte = true ∧
        (utf8 record.state.asStr).length ≤ usizeMax := by
      cases record.state <;> exact ⟨by decide, by decide⟩
    have hid := spells_state hstate.1 hstate.2 id
    have hkind := hid.pushSome (by decide) record.kind (fun kind => utf8 kind.asStr)
      (fun kind => ⟨_, _, kind, none, none, none, none⟩) rfl fun kind _ => stores_kind _ kind
    have hprogress := hkind.pushSome (by decide) record.progress
      (fun progress => utf8 (Nat.repr progress.toNat))
      (fun progress => ⟨_, _, _, progress, none, none, none⟩) rfl
      fun progress heq => stores_progress _ (h.progress progress heq).1
    have happ := hprogress.pushSome (by decide) record.app utf8
      (fun app => ⟨_, _, _, _, app, none, none⟩) rfl fun app heq =>
        stores_app _ (h.app app heq).1 (h.app app heq).2.1 (h.app app heq).2.2
    have htitle := happ.pushSome (by decide) record.title (fun title => encode (utf8 title))
      (fun title => ⟨_, _, _, _, _, title, none⟩) rfl fun title heq =>
        stores_title hstandard _ (h.title title heq)
    exact htitle.pushSome (by decide) record.msg (fun msg => encode (utf8 msg))
      (fun msg => ⟨_, _, _, _, _, _, msg⟩) rfl fun msg heq => stores_msg hstandard _ (h.msg msg heq)

section

omit [Base64Engine] hstandard

theorem intoReport_fieldsOf (h : report.Valid) : (fieldsOf report).intoReport = .ok report := by
  cases report with
  | clear id => rfl
  | set id record =>
    have hclear : utf8 record.state.asStr ≠ utf8 "clear" := by cases record.state <;> decide
    have hparse : State.parse record.state.asStr = some record.state := by
      cases record.state <;> decide
    have hkind : (record.kind.filter fun _ => record.state == .blocked) = record.kind := by
      cases heq : record.kind with
      | none => rfl
      | some kind => rw [h.kind (by rw [heq]; exact Option.some_ne_none kind)]; rfl
    have hprogress : (record.progress.filter fun _ =>
        record.state == .working || record.state == .blocked) = record.progress := by
      cases heq : record.progress with
      | none => rfl
      | some progress =>
        rcases (h.progress progress heq).2 with hstate | hstate
        · rw [hstate]
          rfl
        · rw [hstate]
          rfl
    unfold fieldsOf Fields.intoReport
    dsimp only
    rw [if_neg hclear, fromUtf8_utf8, Option.bind_some, hparse]
    dsimp only
    rw [hkind, hprogress]

theorem length_push (out : List UInt8) (key : String) (value : List UInt8) :
    (push out key value).length ≤ out.length + ((utf8 key).length + 2 + value.length) := by
  unfold push
  rw [length_append, length_append, length_cons]
  split
  · omega
  · rw [length_append, length_singleton]
    omega

theorem length_pushSome {out : List UInt8} {n : Nat} (hout : out.length ≤ n) (key : String)
    {α : Type} (value : Option α) (encode : α → List UInt8) (limit : Nat)
    (hvalue : ∀ a, value = some a → (encode a).length ≤ limit) :
    (pushSome out key (value.map encode)).length ≤ n + ((utf8 key).length + 2 + limit) := by
  cases value with
  | none => exact Nat.le_add_right_of_le hout
  | some a =>
    have := length_push out key (encode a)
    have := hvalue a rfl
    show (push out key (encode a)).length ≤ _
    omega

end

/-- A report that keeps the rules fits a payload. -/
theorem length_encodePayload (h : report.Valid) :
    (encodePayload report).length ≤ maxPayloadBytes := by
  have hid (id : RecordId) : (utf8 id.asStr).length ≤ maxIdBytes := id.length_path
  cases report with
  | clear id =>
    have hstate := length_push [] "state" (utf8 "clear")
    refine (length_pushSome hstate "id" id _ maxIdBytes fun id _ => hid id).trans ?_
    decide
  | set id record =>
    have hstate : (push [] "state" (utf8 record.state.asStr)).length ≤ 14 := by
      refine (length_push _ _ _).trans ?_
      cases record.state <;> decide
    have hid := length_pushSome hstate "id" id _ maxIdBytes fun id _ => hid id
    have hkind := length_pushSome hid "kind" record.kind (fun kind => utf8 kind.asStr) 10
      fun kind _ => by cases kind <;> decide
    have hprogress := length_pushSome hkind "progress" record.progress
      (fun progress => utf8 (Nat.repr progress.toNat)) 3 fun progress heq =>
        (parseProgress_repr progress.toNat
          (Nat.lt_succ_of_le (UInt8.le_iff_toNat_le.mp (h.progress progress heq).1))).2.1
    have happ := length_pushSome hprogress "app" record.app utf8 maxAppBytes fun app heq =>
      (h.app app heq).2.1
    have htitle := length_pushSome happ "title" record.title (fun title => encode (utf8 title))
      maxTitleEncoded fun title heq => length_encode_le hstandard (h.title title heq)
    refine (length_pushSome htitle "msg" record.msg (fun msg => encode (utf8 msg))
      maxMsgEncoded fun msg heq => length_encode_le hstandard (h.msg msg heq)).trans ?_
    decide

theorem decode_encodePayload (h : report.Valid) :
    decode (encodePayload report) = .ok (.report report) :=
  (spells_encodePayload hstandard h).decode_eq (length_encodePayload hstandard h)
    (intoReport_fieldsOf h)

end Codec

/-- The rules of a record that do not depend on its state. -/
structure Fields.Valid (fields : Fields) : Prop where
  progress : ∀ p, fields.progress = some p → p ≤ 100
  app : ∀ app, fields.app = some app → 1 ≤ (utf8 app).length ∧
    (utf8 app).length ≤ maxAppBytes ∧ ∀ b ∈ utf8 app, isIdByte b = true
  title : ∀ title, fields.title = some title → ValidText maxTitleDecoded title
  msg : ∀ msg, fields.msg = some msg → ValidText maxMsgDecoded msg

theorem Fields.valid_default : Fields.default.Valid where
  progress := fun _ h => by cases h
  app := fun _ h => by cases h
  title := fun _ h => by cases h
  msg := fun _ h => by cases h

theorem le_of_parseProgress {s : String} {p : UInt8} (h : parseProgress s = some p) : p ≤ 100 := by
  unfold parseProgress at h
  split at h
  · cases h
  · split at h
    · cases h
    · exact of_decide_eq_true (Option.filter_eq_some_iff.mp h).2

/-- An app that was stored is the value itself. -/
theorem valid_of_parseApp {value : List UInt8} {app : String}
    (h : parseApp ((fromUtf8 value).getD "") = some app) :
    utf8 app = value ∧ 1 ≤ (utf8 app).length ∧ ∀ b ∈ utf8 app, isIdByte b = true := by
  unfold parseApp at h
  split at h
  · next hcond =>
    obtain rfl := Option.some.inj h
    rw [Bool.and_eq_true, Bool.not_eq_true'] at hcond
    have hne : utf8 ((fromUtf8 value).getD "") ≠ [] := fun hnil => by
      rw [hnil] at hcond
      cases hcond.1
    refine ⟨?_, length_pos_iff.mpr hne, all_eq_true.mp hcond.2⟩
    cases htext : fromUtf8 value with
    | some text => exact utf8_of_fromUtf8 htext
    | none =>
      rw [htext] at hne
      exact absurd (by decide) hne
  · cases h

section Valid

variable [Base64Engine]

theorem valid_of_decodeText {value : List UInt8} {limit : Nat} {text : String}
    (h : decodeText value limit = .ok (some text)) : ValidText limit text := by
  unfold decodeText at h
  split at h
  · cases h
  · split at h
    · cases h
    · split at h
      · cases h
      · next bytes _ =>
        split at h
        · cases h
        · next hlength =>
          split at h
          · cases h
          · next text' htext =>
            split at h
            · cases h
            · next hcontrol =>
              split at h
              · cases h
              · next hempty =>
                obtain rfl := Option.some.inj (Except.ok.inj h)
                refine ⟨fun heq => hempty (heq ▸ rfl), fun c hc => ?_, ?_⟩
                · rw [any_eq_true, not_exists] at hcontrol
                  exact Bool.eq_false_iff.mpr fun hc' => hcontrol c ⟨hc, hc'⟩
                · rw [utf8_of_fromUtf8 htext]
                  exact Nat.not_lt.mp hlength

namespace Fields.Valid

variable {fields fields' : Fields}

theorem keep (h : fields.Valid) {key value : List UInt8} (hlength : value.length ≤ limit key)
    (heq : fields.keep key value = .ok fields') : fields'.Valid := by
  unfold Fields.keep at heq
  dsimp only at heq
  split at heq
  · obtain rfl := Except.ok.inj heq
    exact ⟨h.progress, h.app, h.title, h.msg⟩
  · split at heq
    · obtain rfl := Except.ok.inj heq
      exact ⟨h.progress, h.app, h.title, h.msg⟩
    · split at heq
      · obtain rfl := Except.ok.inj heq
        exact ⟨fun p hp => le_of_parseProgress hp, h.app, h.title, h.msg⟩
      · split at heq
        · next hkey =>
          obtain rfl := Except.ok.inj heq
          refine ⟨h.progress, fun app happ => ?_, h.title, h.msg⟩
          obtain ⟨hvalue, hne, hbytes⟩ := valid_of_parseApp happ
          rw [hkey] at hlength
          exact ⟨hne, hvalue ▸ hlength, hbytes⟩
        · split at heq
          · split at heq
            · next title htitle =>
              obtain rfl := Except.ok.inj heq
              refine ⟨h.progress, h.app, fun text htext => ?_, h.msg⟩
              obtain rfl : title = some text := htext
              exact valid_of_decodeText htitle
            · cases heq
          · split at heq
            · split at heq
              · next msg hmsg =>
                obtain rfl := Except.ok.inj heq
                refine ⟨h.progress, h.app, h.title, fun text htext => ?_⟩
                obtain rfl : msg = some text := htext
                exact valid_of_decodeText hmsg
              · cases heq
            · obtain rfl := Except.ok.inj heq
              exact h

theorem store (h : fields.Valid) {key value : List UInt8}
    (heq : fields.store key value = .ok fields') : fields'.Valid := by
  unfold Fields.store at heq
  split at heq
  · cases heq
  · next hlength =>
    split at heq
    · split at heq
      · obtain rfl := Except.ok.inj heq
        exact ⟨h.progress, h.app, h.title, h.msg⟩
      · cases heq
    · split at heq
      · obtain rfl := Except.ok.inj heq
        exact h
      · exact h.keep (Nat.not_lt.mp hlength) heq

theorem take (h : fields.Valid) {pair : List UInt8} (heq : fields.take pair = .ok fields') :
    fields'.Valid := by
  unfold Fields.take at heq
  split at heq
  · obtain rfl := Except.ok.inj heq
    exact h
  · dsimp only at heq
    split at heq
    · obtain rfl := Except.ok.inj heq
      exact h
    · split at heq
      · cases heq
      · split at heq
        · obtain rfl := Except.ok.inj heq
          exact h
        · exact h.store heq

theorem foldlM (h : fields.Valid) {pairs : List (List UInt8)}
    (heq : pairs.foldlM Fields.take fields = .ok fields') : fields'.Valid := by
  induction pairs generalizing fields with
  | nil =>
    obtain rfl := Except.ok.inj heq
    exact h
  | cons pair pairs ih =>
    rw [foldlM_cons] at heq
    cases htake : fields.take pair with
    | error reject =>
      rw [htake] at heq
      cases heq
    | ok next =>
      rw [htake] at heq
      exact ih (h.take htake) heq

omit [Base64Engine] in
theorem intoReport (h : fields.Valid) {report : Report} (heq : fields.intoReport = .ok report) :
    report.Valid := by
  unfold Fields.intoReport at heq
  split at heq
  · cases heq
  · split at heq
    · obtain rfl := Except.ok.inj heq
      trivial
    · split at heq
      · cases heq
      · next state _ =>
        obtain rfl := Except.ok.inj heq
        refine ⟨fun hkind => ?_, fun p hp => ?_, h.app, h.title, h.msg⟩
        · obtain ⟨kind, hkind⟩ := Option.ne_none_iff_exists'.mp hkind
          exact eq_of_beq (Option.filter_eq_some_iff.mp hkind).2
        · obtain ⟨hprogress, hstate⟩ := Option.filter_eq_some_iff.mp hp
          rw [Bool.or_eq_true, beq_iff_eq, beq_iff_eq] at hstate
          exact ⟨h.progress p hprogress, hstate⟩

end Fields.Valid

theorem valid_of_decode {payload : List UInt8} {report : Report}
    (h : decode payload = .ok (.report report)) : report.Valid := by
  unfold decode at h
  split at h
  · cases h
  · split at h
    · cases h
    · cases hfields : Fields.takeAll payload with
      | error reject =>
        rw [hfields] at h
        cases h
      | ok fields =>
        rw [hfields] at h
        cases hreport : fields.intoReport with
        | error reject =>
          change (fields.intoReport >>= fun report => pure (Message.report report)) = _ at h
          rw [hreport] at h
          cases h
        | ok report' =>
          change (fields.intoReport >>= fun report => pure (Message.report report)) = _ at h
          rw [hreport] at h
          obtain rfl : report' = report := Message.report.inj (Except.ok.inj h)
          exact (Fields.valid_default.foldlM hfields).intoReport hreport

/-- The codec is a round trip on the reports that keep the rules, and these are all the
reports that decode. -/
theorem codec_roundTrip (hstandard : Base64Engine.Standard) :
    (∀ report : Report, report.Valid → (encodePayload report).length ≤ maxPayloadBytes ∧
      decode (encodePayload report) = .ok (.report report)) ∧
    ∀ payload report, decode payload = .ok (.report report) → report.Valid ∧
      decode (encodePayload report) = .ok (.report report) :=
  ⟨fun _ h => ⟨length_encodePayload hstandard h, decode_encodePayload hstandard h⟩,
    fun _ _ h => ⟨valid_of_decode h, decode_encodePayload hstandard (valid_of_decode h)⟩⟩

end Valid

/-- The engine of the standard alphabet. -/
@[reducible]
def standardEngine : Base64Engine := ⟨Base64.encode, Base64.decode⟩

theorem standardEngine_standard : @Base64Engine.Standard standardEngine := by
  refine @Base64Engine.Standard.mk standardEngine Base64.decode_encode Base64.length_encode
    fun bytes => ?_
  obtain ⟨body, pad, heq, hpad, hbody⟩ := Base64.padded bytes
  refine ⟨body, pad, heq, hpad, fun b hb => ?_⟩
  obtain ⟨n, hn, rfl⟩ := hbody b hb
  exact Base64.letter_mem hn

/-- A program that asks for a permission. -/
def askReport : Report :=
  .set (RecordId.parse "deploy/us-east.1/step_2+x")
    { state := .blocked
      kind := some .permission
      progress := some 100
      app := some "claude-code"
      title := some "Edit"
      msg := some "Allow Bash?" }

theorem valid_askReport : askReport.Valid where
  kind := fun _ => rfl
  progress := fun p h => by
    obtain rfl := Option.some.inj h
    decide
  app := fun app h => by
    obtain rfl := Option.some.inj h
    exact ⟨by decide, by decide, all_eq_true.mp (by decide)⟩
  title := fun title h => by
    obtain rfl := Option.some.inj h
    exact ⟨by decide, fun c hc => Bool.eq_false_iff.mpr (any_eq_false.mp (by decide) c hc),
      by decide⟩
  msg := fun msg h => by
    obtain rfl := Option.some.inj h
    exact ⟨by decide, fun c hc => Bool.eq_false_iff.mpr (any_eq_false.mp (by decide) c hc),
      by decide⟩

theorem codec_roundTrip_ask :
    @Base64Engine.Standard standardEngine ∧ askReport.Valid ∧
      @decode standardEngine (@encodePayload standardEngine askReport) = .ok (.report askReport) :=
  ⟨standardEngine_standard, valid_askReport,
    ((@codec_roundTrip standardEngine standardEngine_standard).1 askReport valid_askReport).2⟩

end Shux.ProgramStatus
