import Docbase.Proofs.Number.Text
import Docbase.Proofs.Text.Base64
import Docbase.Proofs.Text.Part
import Docbase.Proofs.Value.Calendar
import Docbase.Proofs.Value.Identity
import Docbase.Proofs.Value.Order
import Docbase.Value.Display

namespace Docbase

namespace Text

theorem isPlain_of_isDigit {c : Char} (h : c.isDigit) : isPlain c := by
  have hne : ∀ d : Char, d.isDigit = false → c ≠ d := by
    rintro d hd rfl
    rw [h] at hd
    cases hd
  simp [isPlain, opening, closing, hne]

theorem Numeric.closed {marks cs : List Char} (h : Numeric marks cs)
    (hmarks : marks.all isPlain) (depth : Nat) : Closed depth cs := by
  apply Closed.plain
  rw [List.all_eq_true] at hmarks ⊢
  intro c hc
  obtain hdigit | hmark := h c hc
  · exact isPlain_of_isDigit hdigit
  · exact hmarks c hmark

theorem isPlain_digitChar : ∀ d < 16, isPlain (Nat.digitChar d) := by decide

theorem isPlain_of_mem_hexOfNat {width n : Nat} {c : Char} (h : c ∈ hexOfNat width n) :
    isPlain c := by
  induction width generalizing n with
  | zero => cases h
  | succ width ih =>
    rw [hexOfNat] at h
    obtain hc | hc := List.mem_append.mp h
    · exact ih hc
    · rw [List.mem_singleton.mp hc]
      exact isPlain_digitChar _ (Nat.mod_lt _ (by decide))

theorem all_isPlain_base64 (bytes : List UInt8) : (base64 bytes).all isPlain := by
  have hsign : ∀ n < 64, isPlain (base64Sign n) := by decide
  have hpad : isPlain '=' := by decide
  induction bytes using base64.induct with
  | case1 => rfl
  | case2 a =>
    have ha := a.toNat_lt
    rw [base64]
    simp only [List.all_cons, List.all_nil, Bool.and_true, Bool.and_eq_true]
    exact ⟨hsign _ (by omega), hsign _ (by omega), hpad, hpad⟩
  | case3 a b =>
    have ha := a.toNat_lt
    have hb := b.toNat_lt
    rw [base64]
    simp only [List.all_cons, List.all_nil, Bool.and_true, Bool.and_eq_true]
    exact ⟨hsign _ (by omega), hsign _ (by omega), hsign _ (by omega), hpad⟩
  | case4 a b c rest ih =>
    have ha := a.toNat_lt
    have hb := b.toNat_lt
    have hc := c.toNat_lt
    rw [base64]
    simp only [List.all_cons, Bool.and_eq_true]
    exact ⟨hsign _ (by omega), hsign _ (by omega), hsign _ (by omega), hsign _ (by omega), ih⟩

theorem all_isPlain_toDigits (n : Nat) : (Nat.toDigits 16 n).all isPlain := by
  refine List.all_eq_true.mpr fun c hc => ?_
  obtain ⟨d, hd, rfl⟩ := exists_of_mem_toDigits hc
  exact isPlain_digitChar d hd

theorem base64_injective {xs ys : List UInt8} (h : base64 xs = base64 ys) : xs = ys := by
  have hread := bytesOfBase64?_base64 xs
  rw [h, bytesOfBase64?_base64] at hread
  exact (Option.some.inj hread).symm

end Text

theorem ObjectId.hex_injective {x y : ObjectId} (h : x.hex = y.hex) : x = y := by
  have hread := x.ofText?_hex
  rw [h, y.ofText?_hex] at hread
  exact (Option.some.inj hread).symm

namespace Value

def SameText (v w : Value) : Prop := v.display = w.display

instance (v w : Value) : Decidable (v.SameText w) := inferInstanceAs (Decidable (_ = _))

/-- Values that are told apart by their texts, also among others in a list. -/
inductive Legible : Value → Prop where
  | null : Legible .null
  | bool (b : Bool) : Legible (.bool b)
  | number {v : Value} {n : Number} (hv : v.number? = some n) (hn : n.IsExact) : Legible v
  | string {s : String} (hs : '"' ∉ s.toList) : Legible (.string s)
  | dateTime (millis : Int64) : Legible (.dateTime millis)
  | objectId (id : ObjectId) : Legible (.objectId id)
  | binary (subtype : UInt8) (bytes : List UInt8) : Legible (.binary subtype bytes)
  | array {items : List Value} (h : ∀ v ∈ items, Legible v) : Legible (.array items)
  | document {fields : List (String × Value)} (hkeys : ∀ f ∈ fields, '"' ∉ f.1.toList)
      (h : ∀ f ∈ fields, Legible f.2) : Legible (.document fields)

theorem toList_display_of_number? {v : Value} {n : Number} (h : v.number? = some n) :
    v.display.toList = n.text := by
  cases v
  case int32 | int64 =>
    cases h
    exact Number.toList_toString _
  case double =>
    cases h
    rfl
  all_goals cases h

theorem displayItems_eq_map (items : List Value) : displayItems items = items.map display := by
  induction items with
  | nil => rfl
  | cons v items ih =>
    change v.display :: displayItems items = _
    rw [ih, List.map_cons]

def displayField (f : String × Value) : String := "\"" ++ f.1 ++ "\": " ++ f.2.display

theorem displayFields_eq_map (fields : List (String × Value)) :
    displayFields fields = fields.map displayField := by
  induction fields with
  | nil => rfl
  | cons f fields ih =>
    change displayField f :: displayFields fields = _
    rw [ih, List.map_cons]

theorem toList_commaSeparated (pieces : List String) :
    (commaSeparated pieces).toList = Text.joined (pieces.map String.toList) := by
  rw [commaSeparated, String.toList_intercalate]
  rfl

theorem toList_display_string (s : String) :
    (string s).display.toList = '"' :: s.toList ++ ['"'] := by
  change ("\"" ++ s ++ "\"").toList = _
  simp

theorem toList_display_timestamp (time increment : UInt32) :
    (timestamp time increment).display.toList = "Timestamp(".toList ++
      (Nat.toDigits 10 time.toNat ++ ',' :: (' ' :: (Nat.toDigits 10 increment.toNat ++ [')']))) := by
  change ("Timestamp(" ++ toString time ++ ", " ++ toString increment ++ ")").toList = _
  simp [toString]

theorem toList_display_dateTime (millis : Int64) : (dateTime millis).display.toList =
    "DateTime".toList ++
      ('(' :: ('"' :: (Calendar.text millis.toInt).toList ++ ['"']) ++ [')']) := by
  change ("DateTime(\"" ++ Calendar.text millis.toInt ++ "\")").toList = _
  simp

theorem toList_display_objectId (id : ObjectId) : (objectId id).display.toList =
    "ObjectId".toList ++ ('(' :: ('"' :: id.hex.toList ++ ['"']) ++ [')']) := by
  change ("ObjectId(\"" ++ id.hex ++ "\")").toList = _
  simp

theorem toList_display_binary (subtype : UInt8) (bytes : List UInt8) :
    (binary subtype bytes).display.toList = "Binary".toList ++
      ('(' :: (['0', 'x'] ++ Nat.toDigits 16 subtype.toNat ++ [','] ++ [' '] ++
        Text.base64 bytes) ++ [')']) := by
  change ("Binary(0x" ++ String.ofList (Nat.toDigits 16 subtype.toNat) ++ ", " ++
      String.ofList (Text.base64 bytes) ++ ")").toList = _
  simp

theorem toList_display_array (items : List Value) : (array items).display.toList =
    '[' :: Text.joined ((items.map display).map String.toList) ++ [']'] := by
  change ("[" ++ commaSeparated (displayItems items) ++ "]").toList = _
  rw [displayItems_eq_map]
  simp [toList_commaSeparated]

theorem toList_display_document (fields : List (String × Value)) :
    (document fields).display.toList = '\x7b' :: (if fields = [] then [] else
      [' '] ++ Text.joined ((fields.map displayField).map String.toList) ++ [' ']) ++ ['\x7d'] := by
  cases fields with
  | nil => rfl
  | cons f fields =>
    change ("\x7b " ++ commaSeparated (displayFields (f :: fields)) ++ " \x7d").toList = _
    rw [displayFields_eq_map, if_neg (List.cons_ne_nil f fields)]
    simp [toList_commaSeparated]

theorem sameText_binary_iff {s t : UInt8} {xs ys : List UInt8} :
    (binary s xs).SameText (.binary t ys) ↔ s = t ∧ xs = ys := by
  constructor
  · intro h
    have htext : (binary s xs).display.toList = (binary t ys).display.toList := by
      rw [h]
    have hcut : Nat.toDigits 16 s.toNat ++ ',' :: (' ' :: (Text.base64 xs ++ [')'])) =
        Nat.toDigits 16 t.toNat ++ ',' :: (' ' :: (Text.base64 ys ++ [')'])) := by
      simpa [toList_display_binary] using htext
    have hcomma : ∀ u : UInt8, ',' ∉ Nat.toDigits 16 u.toNat := fun u hmem =>
      absurd (List.all_eq_true.mp (Text.all_isPlain_toDigits u.toNat) _ hmem) (by decide)
    obtain ⟨hsubtype, hbytes⟩ := Text.eq_of_append_cons hcut (hcomma s) (hcomma t)
    have hread := Text.natOfHex?_toDigits s.toNat
    rw [hsubtype, Text.natOfHex?_toDigits] at hread
    exact ⟨UInt8.toNat_inj.mp (Option.some.inj hread).symm,
      Text.base64_injective (List.append_cancel_right (List.cons.inj hbytes).2)⟩
  · rintro ⟨rfl, rfl⟩
    rfl

theorem sameText_timestamp_iff {t u i j : UInt32} :
    (timestamp t i).SameText (timestamp u j) ↔ t = u ∧ i = j := by
  constructor
  · intro h
    have htext : (timestamp t i).display.toList = (timestamp u j).display.toList := by rw [h]
    have hcut : Nat.toDigits 10 t.toNat ++ ',' :: (' ' :: (Nat.toDigits 10 i.toNat ++ [')'])) =
        Nat.toDigits 10 u.toNat ++ ',' :: (' ' :: (Nat.toDigits 10 j.toNat ++ [')'])) := by
      simpa [toList_display_timestamp] using htext
    have hcomma : ∀ n, ',' ∉ Nat.toDigits 10 n := fun n =>
      (Number.numeric_toDigits [] n).not_mem (by decide)
    obtain ⟨htime, hincrement⟩ := Text.eq_of_append_cons hcut (hcomma _) (hcomma _)
    have hincrement := List.append_cancel_right (List.cons.inj hincrement).2
    exact ⟨UInt32.toNat_inj.mp (Number.toDigits_injective htime),
      UInt32.toNat_inj.mp (Number.toDigits_injective hincrement)⟩
  · rintro ⟨rfl, rfl⟩
    rfl

variable {v w : Value}

def classOfMark (c : Char) : Class :=
  if c = 'n' then .null
  else if c = 't' || c = 'f' then .bool
  else if c = '"' then .text
  else if c = 'D' then .dateTime
  else if c = 'O' then .objectId
  else if c = 'B' then .binary
  else if c = '[' then .array
  else if c = '{' then .document
  else if c = 'M' || c = 'T' then .other
  else .number

theorem classOfMark_eq_number {c : Char} (h : c.isDigit ∨ c ∈ ['-', '.', 'i']) :
    classOfMark c = .number := by
  have hne : ∀ d : Char, d.isDigit = false ∧ d ∉ ['-', '.', 'i'] → c ≠ d := by
    rintro d hd rfl
    obtain hdigit | hmem := h
    · rw [hd.1] at hdigit
      cases hdigit
    · exact hd.2 hmem
  simp [classOfMark, hne]

/-- Whether the first character shows the class. -/
def IsMarked (v : Value) : Prop := v.display.toList.head?.map classOfMark = some v.valueClass

theorem IsMarked.valueClass_eq (hv : v.IsMarked) (hw : w.IsMarked) (h : v.SameText w) :
    v.valueClass = w.valueClass := by
  rw [IsMarked] at hv hw
  rw [SameText] at h
  rw [h, hw] at hv
  exact (Option.some.inj hv).symm

namespace Legible

theorem closed_number {n : Number} (hn : n.IsExact) (depth : Nat) : Text.Closed depth n.text := by
  cases n with
  | int k => exact (Number.numeric_decimal k).closed (by decide) depth
  | double x =>
    obtain ⟨hnan, -⟩ := Double.isExact_iff.mp hn
    rw [Number.text, Double.toList_display hnan]
    refine .append ?_ (x.numeric_numeral.closed (by decide) depth)
    split
    · exact .plain (by decide)
    · exact .nil

theorem closed_binary (subtype : UInt8) (bytes : List UInt8) (depth : Nat) :
    Text.Closed depth (Value.binary subtype bytes).display.toList := by
  rw [Value.toList_display_binary]
  refine .append (.plain (by decide)) (.bracketed (by decide) (by decide) ?_)
  refine .append (.append (.append (.append (.plain (by decide)) (.plain ?_)) .comma)
    (.plain (by decide))) (.plain (Text.all_isPlain_base64 bytes))
  exact Text.all_isPlain_toDigits subtype.toNat

theorem closed_call {name content : List Char} (hname : name.all Text.isPlain)
    (hcontent : '"' ∉ content) (depth : Nat) :
    Text.Closed depth (name ++ ('(' :: ('"' :: content ++ ['"']) ++ [')'])) :=
  .append (.plain hname) (.bracketed (by decide) (by decide) (.quoted hcontent))

theorem quote_not_mem_hex (id : ObjectId) : '"' ∉ id.hex.toList := by
  rw [ObjectId.hex, String.toList_ofList]
  intro h
  exact absurd (Text.isPlain_of_mem_hexOfNat h) (by decide)

theorem closed_display (h : v.Legible) (depth : Nat) : Text.Closed depth v.display.toList := by
  induction h generalizing depth with
  | null => exact .plain (by decide)
  | bool b => cases b <;> exact .plain (by decide)
  | number hv hn =>
    rw [toList_display_of_number? hv]
    exact closed_number hn depth
  | @string s hs =>
    rw [toList_display_string]
    exact .quoted hs
  | dateTime millis =>
    rw [toList_display_dateTime]
    exact closed_call (by decide) (Calendar.quote_not_mem_text _) depth
  | objectId id =>
    rw [toList_display_objectId]
    exact closed_call (by decide) (quote_not_mem_hex id) depth
  | binary subtype bytes => exact closed_binary subtype bytes depth
  | array _ ih =>
    rw [toList_display_array]
    refine .bracketed (by decide) (by decide) (.joined ?_)
    intro piece hpiece
    simp only [List.map_map, List.mem_map] at hpiece
    obtain ⟨u, hu, rfl⟩ := hpiece
    exact ih u hu _
  | @document fields hkeys _ ih =>
    rw [toList_display_document]
    refine .bracketed (by decide) (by decide) ?_
    split
    · exact .nil
    · refine .append (.append (.plain (by decide)) (.joined ?_)) (.plain (by decide))
      intro piece hpiece
      simp only [List.map_map, List.mem_map] at hpiece
      obtain ⟨f, hf, rfl⟩ := hpiece
      have htext : (displayField f).toList =
          ('"' :: f.1.toList ++ ['"']) ++ [':', ' '] ++ f.2.display.toList := by
        simp [displayField]
      rw [Function.comp, htext]
      exact .append (.append (.quoted (hkeys f hf)) (.plain (by decide))) (ih f hf _)

theorem mark_number {n : Number} (hn : n.IsExact) :
    n.text.head?.map classOfMark = some .number := by
  have hmark : ∀ {marks cs : List Char}, cs ≠ [] → Text.Numeric marks cs →
      (∀ c ∈ marks, c ∈ ['-', '.', 'i']) → cs.head?.map classOfMark = some .number := by
    intro marks cs hne hcs hmarks
    obtain ⟨c, rest, rfl⟩ := List.exists_cons_of_ne_nil hne
    exact congrArg some (classOfMark_eq_number ((hcs c (by simp)).imp_right (hmarks c)))
  cases n with
  | int k => exact hmark (Number.decimal_ne_nil k) (Number.numeric_decimal k) (by simp)
  | double x =>
    obtain ⟨hnan, -⟩ := Double.isExact_iff.mp hn
    rw [Number.text, Double.toList_display hnan]
    split
    · rfl
    · rw [List.nil_append, Double.numeral]
      split
      · rfl
      · exact hmark (Double.Decimal.positional_ne_nil _) (Double.Decimal.numeric_positional _)
          (by simp)

theorem isMarked (h : v.Legible) : v.IsMarked := by
  rw [IsMarked]
  cases h with
  | number hv hn => rw [toList_display_of_number? hv, mark_number hn, valueClass_of_number? hv]
  | null => rfl
  | bool b => cases b <;> rfl
  | array =>
    rw [toList_display_array]
    rfl
  | document =>
    rw [toList_display_document]
    rfl
  | string | dateTime | objectId | binary =>
    simp only [toList_display_string, toList_display_dateTime, toList_display_objectId,
      toList_display_binary]
    rfl

theorem display_ne_nil (h : v.Legible) : v.display.toList ≠ [] := by
  intro hnil
  have hmark := h.isMarked
  rw [IsMarked, hnil] at hmark
  cases hmark

theorem eq_of_joined {ts us : List String}
    (hts : ∀ t ∈ ts, Text.Closed 0 t.toList ∧ t.toList ≠ [])
    (hus : ∀ u ∈ us, Text.Closed 0 u.toList ∧ u.toList ≠ [])
    (h : Text.joined (ts.map String.toList) = Text.joined (us.map String.toList)) : ts = us := by
  have hpieces := Text.joined_injective (by simpa using hts) (by simpa using hus) h
  exact (List.map_inj_right fun _ _ => String.toList_inj.mp).mp hpieces

theorem sameText_array_iff {vs ws : List Value} (hvs : ∀ v ∈ vs, v.Legible)
    (hws : ∀ w ∈ ws, w.Legible) :
    (Value.array vs).SameText (.array ws) ↔ vs.map display = ws.map display := by
  have hclosed : ∀ {us : List Value}, (∀ u ∈ us, u.Legible) →
      ∀ t ∈ us.map display, Text.Closed 0 t.toList ∧ t.toList ≠ [] := by
    intro us hus t ht
    obtain ⟨u, hu, rfl⟩ := List.mem_map.mp ht
    exact ⟨(hus u hu).closed_display 0, (hus u hu).display_ne_nil⟩
  rw [SameText, ← String.toList_inj, toList_display_array, toList_display_array]
  constructor
  · intro h
    have hjoined := List.append_cancel_right (List.cons.inj h).2
    exact eq_of_joined (hclosed hvs) (hclosed hws) hjoined
  · intro h
    rw [h]

theorem closed_displayField {f : String × Value} (hkey : '"' ∉ f.1.toList) (h : f.2.Legible)
    (depth : Nat) : Text.Closed depth (displayField f).toList := by
  have htext : (displayField f).toList =
      ('"' :: f.1.toList ++ ['"']) ++ [':', ' '] ++ f.2.display.toList := by simp [displayField]
  rw [htext]
  exact .append (.append (.quoted hkey) (.plain (by decide))) (h.closed_display depth)

theorem displayField_inj {f g : String × Value} (hf : '"' ∉ f.1.toList) (hg : '"' ∉ g.1.toList) :
    displayField f = displayField g ↔ f.1 = g.1 ∧ f.2.SameText g.2 := by
  constructor
  · intro h
    have htext : (displayField f).toList = (displayField g).toList := by rw [h]
    have hcut : f.1.toList ++ '"' :: (':' :: ' ' :: f.2.display.toList) =
        g.1.toList ++ '"' :: (':' :: ' ' :: g.2.display.toList) := by
      simpa [displayField] using htext
    obtain ⟨hkeys, hvalues⟩ := Text.eq_of_append_cons hcut hf hg
    exact ⟨String.toList_inj.mp hkeys, String.toList_inj.mp (by simpa using hvalues)⟩
  · rintro ⟨hkeys, hvalues⟩
    rw [displayField, displayField, hkeys, hvalues]

theorem sameText_document_iff {fs gs : List (String × Value)}
    (hfs : ∀ f ∈ fs, '"' ∉ f.1.toList ∧ f.2.Legible)
    (hgs : ∀ g ∈ gs, '"' ∉ g.1.toList ∧ g.2.Legible) :
    (Value.document fs).SameText (.document gs) ↔ fs.map displayField = gs.map displayField := by
  have hclosed : ∀ {es : List (String × Value)}, (∀ e ∈ es, '"' ∉ e.1.toList ∧ e.2.Legible) →
      ∀ t ∈ es.map displayField, Text.Closed 0 t.toList ∧ t.toList ≠ [] := by
    intro es hes t ht
    obtain ⟨e, he, rfl⟩ := List.mem_map.mp ht
    obtain ⟨hkey, hvalue⟩ := hes e he
    exact ⟨closed_displayField hkey hvalue 0, by simp [displayField]⟩
  rw [SameText, ← String.toList_inj, toList_display_document, toList_display_document]
  constructor
  · intro h
    have hbody := List.append_cancel_right (List.cons.inj h).2
    by_cases hf : fs = [] <;> by_cases hg : gs = []
    · rw [hf, hg]
    · rw [if_pos hf, if_neg hg] at hbody
      simp at hbody
    · rw [if_neg hf, if_pos hg] at hbody
      simp at hbody
    · rw [if_neg hf, if_neg hg] at hbody
      have hjoined := List.append_cancel_left (List.append_cancel_right hbody)
      exact eq_of_joined (hclosed hfs) (hclosed hgs) hjoined
  · intro h
    have hnil : fs = [] ↔ gs = [] := by
      rw [← List.map_eq_nil_iff (f := displayField), h, List.map_eq_nil_iff]
    rw [h]
    simp only [hnil]

end Legible

end Value

end Docbase
