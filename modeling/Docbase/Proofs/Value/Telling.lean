import Docbase.Proofs.Value.Agreement
import Docbase.Proofs.Value.Display

namespace Docbase.Value

variable {v w : Value}

theorem dateTime_order_eq_iff (x y : Int64) : (dateTime x).order (.dateTime y) = .eq ↔
    (dateTime x).SameText (.dateTime y) := by
  have htext : Calendar.text x.toInt = Calendar.text y.toInt ↔ x.toInt = y.toInt :=
    ⟨Calendar.text_injective, fun h => by rw [h]⟩
  simp [order, orderPlain, number?, text?, SameText, display, htext, String.append_right_inj,
    String.append_left_inj]

theorem objectId_order_eq_iff (x y : ObjectId) : (objectId x).order (.objectId y) = .eq ↔
    (objectId x).SameText (.objectId y) := by
  have htext : x.hex = y.hex ↔ x = y := ⟨ObjectId.hex_injective, fun h => by rw [h]⟩
  simp [order, orderPlain, number?, text?, SameText, display, htext,
    ObjectId.toNat_number_inj, String.append_right_inj, String.append_left_inj]

theorem binary_order_eq_iff (s t : UInt8) (xs ys : List UInt8) :
    (binary s xs).order (.binary t ys) = .eq ↔
      (binary s xs).SameText (.binary t ys) := by
  rw [sameText_binary_iff]
  simp only [order, orderPlain, number?, text?, Ordering.then_eq_eq, Std.compare_eq_iff_eq]
  constructor
  · rintro ⟨-, hsubtype, hbytes⟩
    exact ⟨hsubtype, hbytes⟩
  · rintro ⟨hsubtype, hbytes⟩
    exact ⟨congrArg _ hbytes, hsubtype, hbytes⟩

theorem string_order_eq_iff (s t : String) :
    (string s).order (.string t) = .eq ↔ (string s).SameText (.string t) := by
  simp [order, orderPlain, number?, text?, SameText, display, String.append_right_inj,
    String.append_left_inj]

theorem string_agrees_iff (s t : String) :
    (string s).agrees (.string t) ↔ (string s).SameText (.string t) := by
  rw [← string_order_eq_iff]
  simp [agrees, number?, valueClass]

theorem orderItems_eq_iff {vs ws : List Value}
    (h : ∀ v ∈ vs, ∀ w ∈ ws, v.order w = .eq ↔ v.SameText w) :
    orderItems vs ws = .eq ↔ vs.map display = ws.map display := by
  induction vs generalizing ws with
  | nil => cases ws <;> simp [orderItems]
  | cons v vs ih =>
    cases ws with
    | nil => simp [orderItems]
    | cons w ws =>
      have hfirst := h v (by simp) w (by simp)
      have hrest : orderItems vs ws = .eq ↔ vs.map display = ws.map display :=
        ih fun v hv w hw => h v (by simp [hv]) w (by simp [hw])
      rw [orderItems, Ordering.then_eq_eq, hfirst, hrest, List.map_cons, List.map_cons,
        List.cons.injEq]
      rfl

theorem orderFields_eq_iff {fs gs : List (String × Value)}
    (hfs : ∀ f ∈ fs, '"' ∉ f.1.toList) (hgs : ∀ g ∈ gs, '"' ∉ g.1.toList)
    (h : ∀ f ∈ fs, ∀ g ∈ gs, f.2.order g.2 = .eq ↔ f.2.SameText g.2) :
    orderFields fs gs = .eq ↔ fs.map displayField = gs.map displayField := by
  induction fs generalizing gs with
  | nil => cases gs <;> simp [orderFields]
  | cons f fs ih =>
    cases gs with
    | nil => simp [orderFields]
    | cons g gs =>
      have hfirst := h f (by simp) g (by simp)
      have hrest : orderFields fs gs = .eq ↔ fs.map displayField = gs.map displayField :=
        ih (fun f hf => hfs f (by simp [hf])) (fun g hg => hgs g (by simp [hg]))
          fun f hf g hg => h f (by simp [hf]) g (by simp [hg])
      rw [orderFields, Ordering.then_eq_eq, Ordering.then_eq_eq, hfirst, hrest, List.map_cons,
        List.map_cons, List.cons.injEq, Legible.displayField_inj (hfs f (by simp)) (hgs g (by simp)),
        Std.compare_eq_iff_eq]
      tauto

theorem number_order_eq_iff {m n : Number} (hv : v.number? = some m) (hw : w.number? = some n)
    (hm : m.IsExact) (hn : n.IsExact) : v.order w = .eq ↔ v.SameText w := by
  rw [order_of_number? hv hw, Number.order_eq, Std.compare_eq_iff_eq,
    ← Number.text_eq_iff_size?_eq hm hn, SameText, ← String.toList_inj,
    toList_display_of_number? hv, toList_display_of_number? hw]

namespace Legible

theorem order_eq_iff_of_class (hv : v.Legible) (hw : w.Legible)
    (h : v.valueClass = w.valueClass → (v.order w = .eq ↔ v.SameText w)) :
    v.order w = .eq ↔ v.SameText w := by
  by_cases hclass : v.valueClass = w.valueClass
  · exact h hclass
  · exact iff_of_false (fun heq => hclass (valueClass_eq_of_order_eq heq))
      fun htext => hclass (hv.isMarked.valueClass_eq hw.isMarked htext)

theorem exists_of_number (h : v.Legible) (hclass : v.valueClass = .number) :
    ∃ n, v.number? = some n ∧ n.IsExact := by
  cases h with
  | number hv hn => exact ⟨_, hv, hn⟩
  | _ => cases hclass

theorem eq_null (h : v.Legible) (hclass : v.valueClass = .null) : v = .null := by
  cases h with
  | null => rfl
  | number hv _ => cases (valueClass_of_number? hv).symm.trans hclass
  | _ => cases hclass

theorem exists_of_text (h : v.Legible) (hclass : v.valueClass = .text) : ∃ s, v = .string s := by
  cases h with
  | @string s _ => exact ⟨s, rfl⟩
  | number hv _ => cases (valueClass_of_number? hv).symm.trans hclass
  | _ => cases hclass

theorem of_array {items : List Value} (h : (Value.array items).Legible) :
    ∀ v ∈ items, v.Legible := by
  cases h with
  | array h => exact h
  | number hv _ => cases hv

theorem of_document {fields : List (String × Value)} (h : (Value.document fields).Legible) :
    (∀ f ∈ fields, '"' ∉ f.1.toList) ∧ ∀ f ∈ fields, f.2.Legible := by
  cases h with
  | document hkeys h => exact ⟨hkeys, h⟩
  | number hv _ => cases hv

theorem order_eq_iff (hv : v.Legible) (hw : w.Legible) : v.order w = .eq ↔ v.SameText w := by
  induction hv generalizing w with
  | null =>
    refine order_eq_iff_of_class .null hw fun hclass => ?_
    obtain rfl := hw.eq_null hclass.symm
    exact iff_of_true rfl rfl
  | bool a =>
    refine order_eq_iff_of_class (.bool a) hw fun hclass => ?_
    cases w with
    | bool b => cases a <;> cases b <;> decide
    | _ => cases hclass
  | number hv hm =>
    refine order_eq_iff_of_class (.number hv hm) hw fun hclass => ?_
    obtain ⟨n, hn, hexact⟩ := hw.exists_of_number (hclass.symm.trans (valueClass_of_number? hv))
    exact number_order_eq_iff hv hn hm hexact
  | @string s hs =>
    refine order_eq_iff_of_class (.string hs) hw fun hclass => ?_
    obtain ⟨t, rfl⟩ := hw.exists_of_text hclass.symm
    exact string_order_eq_iff s t
  | dateTime x =>
    refine order_eq_iff_of_class (.dateTime x) hw fun hclass => ?_
    cases w with
    | dateTime y => exact dateTime_order_eq_iff x y
    | _ => cases hclass
  | objectId x =>
    refine order_eq_iff_of_class (.objectId x) hw fun hclass => ?_
    cases w with
    | objectId y => exact objectId_order_eq_iff x y
    | _ => cases hclass
  | binary s xs =>
    refine order_eq_iff_of_class (.binary s xs) hw fun hclass => ?_
    cases w with
    | binary t ys => exact binary_order_eq_iff s t xs ys
    | _ => cases hclass
  | @array vs hvs ih =>
    refine order_eq_iff_of_class (.array hvs) hw fun hclass => ?_
    cases w with
    | array ws =>
      rw [sameText_array_iff hvs hw.of_array, order]
      exact orderItems_eq_iff fun v hv w hmem => ih v hv (hw.of_array w hmem)
    | _ => cases hclass
  | @document fs hkeys hfs ih =>
    refine order_eq_iff_of_class (.document hkeys hfs) hw fun hclass => ?_
    cases w with
    | document gs =>
      obtain ⟨hkeys', hgs⟩ := hw.of_document
      rw [sameText_document_iff (fun f hf => ⟨hkeys f hf, hfs f hf⟩)
        (fun g hg => ⟨hkeys' g hg, hgs g hg⟩), order]
      exact orderFields_eq_iff hkeys hkeys' fun f hf g hg => ih f hf (hgs g hg)
    | _ => cases hclass

theorem valueClass_ne_other (h : v.Legible) : v.valueClass ≠ .other := by
  cases h with
  | number hv _ =>
    rw [valueClass_of_number? hv]
    decide
  | _ => exact nofun

theorem isNaN_eq_false (h : v.Legible) : v.isNaN = false := by
  cases h with
  | number hv hn =>
    obtain ⟨a, ha⟩ := hn.exists_size?
    rw [isNaN_of_number? hv, ha]
    rfl
  | _ => rfl

theorem agrees_iff (hv : v.Legible) (hw : w.Legible) : v.agrees w ↔ v.SameText w := by
  rw [← order_eq_iff hv hw]
  rw [agrees_iff_order_eq]
  exact and_iff_left (not_tiesWith hw.isNaN_eq_false hw.valueClass_ne_other)

end Legible

/-- Values that have one text just when queries see no difference between them. Strings may hold
quotation marks as long as they are in no list. -/
inductive Telling : Value → Prop where
  | legible {v : Value} (h : v.Legible) : Telling v
  | string (s : String) : Telling (.string s)
  | minKey : Telling .minKey
  | maxKey : Telling .maxKey
  | timestamp (time increment : UInt32) : Telling (.timestamp time increment)

namespace Telling

theorem isMarked (h : v.Telling) : v.IsMarked := by
  rw [IsMarked]
  cases h with
  | legible h => exact h.isMarked
  | minKey | maxKey => rfl
  | string | timestamp =>
    simp only [display, String.toList_append, List.append_assoc]
    rfl

theorem exists_of_text (h : v.Telling) (hclass : v.valueClass = .text) : ∃ s, v = .string s := by
  cases h with
  | legible h => exact h.exists_of_text hclass
  | string s => exact ⟨s, rfl⟩
  | _ => cases hclass

theorem legible_of_class (h : v.Telling) (htext : v.valueClass ≠ .text)
    (hother : v.valueClass ≠ .other) : v.Legible := by
  cases h with
  | legible h => exact h
  | string s => exact absurd rfl htext
  | _ => exact absurd rfl hother

theorem agrees_iff_of_other (hv : v.Telling) (hw : w.Telling) (hvclass : v.valueClass = .other)
    (hwclass : w.valueClass = .other) : v.agrees w ↔ v.SameText w := by
  rw [agrees_iff_same hvclass hwclass]
  cases hv with
  | legible hv => exact absurd hvclass hv.valueClass_ne_other
  | string s => cases hvclass
  | minKey | maxKey =>
    cases hw with
    | legible hw => exact absurd hwclass hw.valueClass_ne_other
    | string s => cases hwclass
    | _ => simp [same, SameText, ← String.toList_inj, display]
  | timestamp t i =>
    cases hw with
    | legible hw => exact absurd hwclass hw.valueClass_ne_other
    | string s => cases hwclass
    | timestamp u j =>
      rw [sameText_timestamp_iff]
      simp [same]
    | _ => simp [same, SameText, ← String.toList_inj, display]

theorem agrees_iff (hv : v.Telling) (hw : w.Telling) : v.agrees w ↔ v.SameText w := by
  by_cases hclass : v.valueClass = w.valueClass
  · by_cases htext : w.valueClass = .text
    · obtain ⟨s, rfl⟩ := hv.exists_of_text (hclass.trans htext)
      obtain ⟨t, rfl⟩ := hw.exists_of_text htext
      exact string_agrees_iff s t
    · by_cases hother : w.valueClass = .other
      · exact agrees_iff_of_other hv hw (hclass.trans hother) hother
      · have hvlegible := hv.legible_of_class (hclass ▸ htext) (hclass ▸ hother)
        exact hvlegible.agrees_iff (hw.legible_of_class htext hother)
  · exact iff_of_false (fun h => hclass (valueClass_eq_of_order_eq (order_eq_of_agrees h)))
      fun htext => hclass (hv.isMarked.valueClass_eq hw.isMarked htext)

end Telling

namespace IsIdentity

variable {i j : Identity}

theorem telling (h : v.IsIdentity i) : v.Telling := by
  have hnumber : ∀ {u : Value} {n : Int}, u.number? = some (.int n) → n.natAbs ≤ 2 ^ 63 →
      u.Telling := fun hu hn => .legible (.number hu hn)
  cases h with
  | objectId id => exact .legible (.objectId id)
  | text s => exact .string s
  | int32 n => exact hnumber rfl (by have := n.le_toInt; have := n.toInt_lt; omega)
  | int64 n => exact hnumber rfl (by have := n.le_toInt; have := n.toInt_lt; omega)
  | uuid bytes => exact .legible (.binary uuidSubtype bytes)

theorem agrees_iff_display_eq (hv : v.IsIdentity i) (hw : w.IsIdentity j) :
    v.agrees w ↔ v.display = w.display :=
  hv.telling.agrees_iff hw.telling

theorem agrees_iff (hv : v.IsIdentity i) (hw : w.IsIdentity j) : v.agrees w ↔ i = j := by
  cases hv <;> cases hw <;>
    simp [agrees, number?, valueClass, order, orderPlain, text?, Number.compare?,
      ObjectId.toNat_number_inj]
  exact congrArg _

theorem cases_of_agrees (hw : w.IsIdentity i) (h : v.agrees w) :
    v.IsIdentity i ∨ (∃ s, v = .symbol s ∧ w.valueClass = .text) ∨
      ∃ x, v = .double x ∧ w.valueClass = .number := by
  have horder := order_eq_of_agrees h
  have hclass := valueClass_eq_of_order_eq horder
  have hsame : ∀ {j}, v.IsIdentity j → v.IsIdentity i := fun hj => (hj.agrees_iff hw).mp h ▸ hj
  cases hw with
  | objectId id =>
    cases v with
    | objectId y => exact .inl (hsame (.objectId y))
    | _ => cases hclass
  | text s =>
    cases v with
    | string t => exact .inl (hsame (.text t))
    | symbol t => exact .inr (.inl ⟨t, rfl, rfl⟩)
    | _ => cases hclass
  | int32 n | int64 n =>
    cases v with
    | int32 m => exact .inl (hsame (.int32 m))
    | int64 m => exact .inl (hsame (.int64 m))
    | double x => exact .inr (.inr ⟨x, rfl, rfl⟩)
    | _ => cases hclass
  | uuid bytes =>
    cases v with
    | binary subtype ys =>
      obtain ⟨rfl, -⟩ := sameText_binary_iff.mp ((binary_order_eq_iff _ _ _ _).mp horder)
      exact .inl (hsame (.uuid ys))
    | _ => cases hclass

theorem eq_or_widths (hv : v.IsIdentity i) (hw : w.IsIdentity i) :
    v = w ∨ (∃ m n, v = .int32 m ∧ w = .int64 n ∧ m.toInt = n.toInt) ∨
      ∃ m n, v = .int64 m ∧ w = .int32 n ∧ m.toInt = n.toInt := by
  generalize hij : i = j at hw
  cases hv with
  | objectId id =>
    cases hw <;> cases hij
    exact .inl rfl
  | text s =>
    cases hw <;> cases hij
    exact .inl rfl
  | uuid bytes =>
    cases hw <;> cases hij
    exact .inl rfl
  | int32 m =>
    cases hw with
    | int32 n => exact .inl (by rw [Int32.toInt_inj.mp (Identity.integer.inj hij)])
    | int64 n => exact .inr (.inl ⟨m, n, rfl, rfl, Identity.integer.inj hij⟩)
    | _ => cases hij
  | int64 m =>
    cases hw with
    | int64 n => exact .inl (by rw [Int64.toInt_inj.mp (Identity.integer.inj hij)])
    | int32 n => exact .inr (.inr ⟨m, n, rfl, rfl, Identity.integer.inj hij⟩)
    | _ => cases hij

end IsIdentity

end Docbase.Value
