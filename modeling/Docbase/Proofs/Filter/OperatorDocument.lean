import Docbase.OperatorDocument
import Docbase.Proofs.Filter.Connective
import Docbase.Proofs.Language.FieldNames
import Docbase.Proofs.Lookup
import Docbase.Proofs.Text.Pattern

namespace Docbase

namespace Operator

/-- The operators that stand for a comparison with the literal as it is. -/
def signs : List (String × Operator) :=
  [("$eq", .eq), ("$ne", .ne), ("$gt", .gt), ("$gte", .gte), ("$lt", .lt), ("$lte", .lte)]

def listSigns : List (String × Operator) := [("$in", .anyOf), ("$nin", .noneOf)]

/-- The operators on texts with what stands around the text in their patterns. -/
def anchors : List (Operator × List Char × List Char) :=
  [(.contains, [], []), (.startsWith, ['^'], []), (.endsWith, [], ['$'])]

end Operator

/-- What a server finds with documents of operators, a relation between queries and stored
documents. A key whose value is a document of conditions is a field. -/
structure FindsByOperators (finds : Document → Document → Prop) : Prop where
  empty (d : Document) : finds [] d
  and (d : Document) {qs : List Document} : qs ≠ [] →
    (finds [("$and", .array (qs.map .document))] d ↔ ∀ q ∈ qs, finds q d)
  or (d : Document) {qs : List Document} : qs ≠ [] →
    (finds [("$or", .array (qs.map .document))] d ↔ ∃ q ∈ qs, finds q d)
  nor (d : Document) {qs : List Document} : qs ≠ [] →
    (finds [("$nor", .array (qs.map .document))] d ↔ ∀ q ∈ qs, ¬ finds q d)
  not (d : Document) (field : String) (condition : Document) :
    finds [(field, .document [("$not", .document condition)])] d ↔
      ¬ finds [(field, .document condition)] d
  sign (d : Document) (field : String) (literal : Value) {sign : String} {op : Operator} :
    (sign, op) ∈ Operator.signs → (finds [(field, .document [(sign, literal)])] d ↔
      op.holds (d.lookup (Path.ofString field)) literal)
  listSign (d : Document) (field : String) (items : List Value) {sign : String} {op : Operator} :
    (sign, op) ∈ Operator.listSigns → (finds [(field, .document [(sign, .array items)])] d ↔
      op.holds (d.lookup (Path.ofString field)) (.array items))
  exist (d : Document) (field : String) (expected : Bool) :
    finds [(field, .document [("$exists", .bool expected)])] d ↔
      (!(d.lookup (Path.ofString field)).isEmpty) = expected
  pattern (d : Document) (field text : String) {op : Operator} {before after : List Char} :
    (op, before, after) ∈ Operator.anchors →
      (finds [(field, .document (Operator.pattern before text after))] d ↔
        op.holds (d.lookup (Path.ofString field)) (.string text))
  every (d : Document) (field : String) (items : List Value) :
    finds [(field, .document [("$all", .array items)])] d ↔
      items ≠ [] ∧ ∀ item ∈ items, finds [(field, .document [("$eq", item)])] d

namespace Operator

/-- Whether it makes no difference to ask a field with these values, element by element of a list,
whether it contains the literal. -/
def ContainsAlike (values : List Value) : Value → Prop
  | .null => values ≠ []
  | .array [] => ∀ items, .array items ∉ values
  | .array required => (∀ r ∈ required, holdsEq values r) → ∃ v ∈ values, v.holdsAll required
  | _ => True

variable {values : List Value} {literal : Value}

theorem holdsEq_iff_iff : (holdsEq values literal ↔ anyCandidate values (·.agrees literal)) ↔
    (literal = .null → values ≠ []) := by
  cases values with
  | nil => cases literal <;> simp [holdsEq, anyCandidate]
  | cons v values => simp [holdsEq]

theorem holdsEq_of_holdsAll {v : Value} {required : List Value} (hv : v ∈ values)
    (h : v.holdsAll required) : ∀ r ∈ required, holdsEq values r := by
  intro r hr
  cases v with
  | array items =>
    obtain ⟨item, hitem, hagrees⟩ := List.any_eq_true.mp (List.all_eq_true.mp h r hr)
    cases values with
    | nil => cases hv
    | cons u rest =>
      exact List.any_eq_true.mpr ⟨_, hv, List.any_eq_true.mpr
        ⟨item, List.mem_cons_of_mem _ hitem, hagrees⟩⟩
  | _ => cases h

theorem holdsContains_array {required : List Value} :
    holdsContains values (.array required) ↔ ∃ v ∈ values, v.holdsAll required := List.any_eq_true

/-- One array may be asked for any list of values that are not arrays themselves, if there are
any. -/
theorem containsAlike_of_array {items required : List Value} (hne : required ≠ [])
    (h : ∀ r ∈ required, r.valueClass ≠ .array) :
    ContainsAlike [.array items] (.array required) := by
  cases required with
  | nil => exact absurd rfl hne
  | cons r required =>
    refine fun hevery => ⟨_, List.mem_singleton_self _, List.all_eq_true.mpr fun r hr => ?_⟩
    have hclass : (Value.array items).valueClass = .array := rfl
    have hself : (Value.array items).agrees r = false := by
      simp [Value.agrees, Value.number?, hclass, Ne.symm (h r hr)]
    simpa [holdsEq, anyCandidate, Value.candidates, hself] using hevery r hr

variable {finds : Document → Document → Prop} (hfinds : FindsByOperators finds) (d : Document)
  (field : String)
include hfinds

theorem finds_eq_iff (literal : Value) : finds [(field, .document [("$eq", literal)])] d ↔
    holdsEq (d.lookup (Path.ofString field)) literal :=
  hfinds.sign d field literal (List.mem_cons_self ..)

theorem finds_every_iff (required : List Value) :
    (finds [(field, .document [("$all", .array required)])] d ↔
      holdsContains (d.lookup (Path.ofString field)) (.array required)) ↔
    ContainsAlike (d.lookup (Path.ofString field)) (.array required) := by
  rw [hfinds.every, holdsContains_array]
  simp only [finds_eq_iff hfinds]
  generalize d.lookup (Path.ofString field) = values
  cases required with
  | nil =>
    have hall (v : Value) : v.holdsAll [] ↔ ∃ items, v = .array items := by
      cases v <;> simp [Value.holdsAll]
    simp only [hall, ContainsAlike]
    simp
  | cons r required =>
    constructor
    · exact fun h hevery => h.mp ⟨List.cons_ne_nil r required, hevery⟩
    · exact fun h => ⟨fun hevery => h hevery.2, fun ⟨v, hv, hall⟩ =>
        ⟨List.cons_ne_nil r required, holdsEq_of_holdsAll hv hall⟩⟩

theorem finds_containsDocument_iff (literal : Value) :
    (finds [(field, .document (containsDocument literal))] d ↔
      holdsContains (d.lookup (Path.ofString field)) literal) ↔
    ContainsAlike (d.lookup (Path.ofString field)) literal := by
  cases literal with
  | string s => exact iff_of_true (hfinds.pattern d field s (List.mem_cons_self ..)) trivial
  | array required => exact finds_every_iff hfinds d field required
  | _ =>
    simp only [containsDocument, holdsContains, finds_eq_iff hfinds, holdsEq_iff_iff]
    simp [ContainsAlike]

theorem finds_asList_iff (literal : Value) {sign : String} {op : Operator}
    (hsign : (sign, op) ∈ listSigns) : finds [(field, .document [(sign, asList literal)])] d ↔
      op.holds (d.lookup (Path.ofString field)) literal := by
  cases literal with
  | array items => exact hfinds.listSign d field items hsign
  | _ =>
    refine (hfinds.listSign d field _ hsign).trans ?_
    simp only [listSigns, List.mem_cons, Prod.mk.injEq, List.not_mem_nil, or_false] at hsign
    obtain ⟨-, rfl⟩ | ⟨-, rfl⟩ := hsign <;> rfl

/-- The condition of an operator finds what the operator accepts, except for what a field contains. -/
theorem finds_document_iff {op : Operator} {literal : Value} {condition : Document}
    (h : op.document literal = .ok condition)
    (halike : op = .contains ∨ op = .notContains →
      ContainsAlike (d.lookup (Path.ofString field)) literal) :
    finds [(field, .document condition)] d ↔
      op.holds (d.lookup (Path.ofString field)) literal := by
  cases op with
  | eq | ne | gt | gte | lt | lte =>
    obtain rfl := Except.ok.inj h
    exact hfinds.sign d field literal (by simp [signs])
  | contains =>
    obtain rfl := Except.ok.inj h
    exact (finds_containsDocument_iff hfinds d field literal).mpr (halike (.inl rfl))
  | notContains =>
    obtain rfl := Except.ok.inj h
    rw [hfinds.not, (finds_containsDocument_iff hfinds d field literal).mpr (halike (.inr rfl))]
    simp [holds]
  | startsWith | endsWith =>
    cases literal with
    | string s =>
      obtain rfl := Except.ok.inj h
      exact hfinds.pattern d field s (by simp [anchors])
    | _ => cases h
  | anyOf | noneOf =>
    obtain rfl := Except.ok.inj h
    exact finds_asList_iff hfinds d field literal (by simp [listSigns])

end Operator

namespace Filter

mutual

/-- The fields that are asked what they contain, with the literals. -/
def containments : Filter → List (Path × Value)
  | all parts => containmentsIn parts
  | any parts => containmentsIn parts
  | negation inner => containments inner
  | present .. => []
  | comparison path op literal =>
    if op = .contains ∨ op = .notContains then [(path, literal)] else []

def containmentsIn : List Filter → List (Path × Value)
  | [] => []
  | f :: rest => containments f ++ containmentsIn rest

end

variable {finds : Document → Document → Prop}

mutual

/-- A server finds with the document of a filter what the filter accepts, as long as it does so for
the fields that are asked what they contain. -/
theorem finds_operatorDocument_iff (hfinds : FindsByOperators finds) (d : Document) :
    ∀ (f : Filter) {q : Document}, f.operatorDocument = .ok q →
    (∀ path ∈ f.paths, Path.ofString path.text = path) →
    (∀ c ∈ f.containments, Operator.ContainsAlike (d.lookup c.1) c.2) →
    (finds q d ↔ f.accepts d)
  | all [], q, h, _, _ => by
    obtain rfl := Except.ok.inj h
    simpa using hfinds.empty d
  | all (f :: fs), q, h, hpaths, hcontains => by
    obtain ⟨qs, hqs, h⟩ := exists_of_bind_eq_ok h
    obtain rfl := Except.ok.inj h
    obtain ⟨queries, rfl, hne, hall, -⟩ :=
      finds_operatorDocuments_iff hfinds d (f :: fs) hqs hpaths hcontains
    rw [hfinds.and d (hne (List.cons_ne_nil f fs)), hall]
    rfl
  | any [], q, h, _, _ => by
    obtain rfl := Except.ok.inj h
    have hnor := hfinds.nor d (List.cons_ne_nil [] [])
    simpa [hfinds.empty d] using hnor
  | any (f :: fs), q, h, hpaths, hcontains => by
    obtain ⟨qs, hqs, h⟩ := exists_of_bind_eq_ok h
    obtain rfl := Except.ok.inj h
    obtain ⟨queries, rfl, hne, -, hany⟩ :=
      finds_operatorDocuments_iff hfinds d (f :: fs) hqs hpaths hcontains
    rw [hfinds.or d (hne (List.cons_ne_nil f fs)), hany]
    rfl
  | negation f, q, h, hpaths, hcontains => by
    obtain ⟨inner, hinner, h⟩ := exists_of_bind_eq_ok h
    obtain rfl := Except.ok.inj h
    have hnor := hfinds.nor d (List.cons_ne_nil inner [])
    have hf := finds_operatorDocument_iff hfinds d f hinner hpaths hcontains
    simpa [accepts, hf] using hnor
  | present path expected, q, h, hpaths, _ => by
    obtain rfl := Except.ok.inj h
    have hpath := hpaths path (List.mem_singleton_self path)
    rw [hfinds.exist, hpath, accepts, beq_iff_eq]
  | comparison path op literal, q, h, hpaths, hcontains => by
    obtain ⟨condition, hcondition, h⟩ := exists_of_bind_eq_ok h
    obtain rfl := Except.ok.inj h
    have hpath := hpaths path (List.mem_singleton_self path)
    refine (Operator.finds_document_iff hfinds d path.text hcondition fun hop => ?_).trans ?_
    · rw [hpath]
      exact hcontains (path, literal) (by simp [containments, hop])
    · rw [hpath]
      rfl

theorem finds_operatorDocuments_iff (hfinds : FindsByOperators finds) (d : Document) :
    ∀ (fs : List Filter) {qs : List Value},
    operatorDocuments fs = .ok qs →
    (∀ path ∈ pathsIn fs, Path.ofString path.text = path) →
    (∀ c ∈ containmentsIn fs, Operator.ContainsAlike (d.lookup c.1) c.2) →
    ∃ queries : List Document, qs = queries.map .document ∧ (fs ≠ [] → queries ≠ []) ∧
      ((∀ q ∈ queries, finds q d) ↔ acceptsAll d fs) ∧
      ((∃ q ∈ queries, finds q d) ↔ acceptsAny d fs)
  | [], qs, h, _, _ => by
    obtain rfl := Except.ok.inj h
    exact ⟨[], rfl, fun h => absurd rfl h, by simp [acceptsAll], by simp [acceptsAny]⟩
  | f :: fs, qs, h, hpaths, hcontains => by
    obtain ⟨q, hq, h⟩ := exists_of_bind_eq_ok h
    obtain ⟨rest, hrest, h⟩ := exists_of_bind_eq_ok h
    obtain rfl := Except.ok.inj h
    rw [pathsIn, List.forall_mem_append] at hpaths
    rw [containmentsIn, List.forall_mem_append] at hcontains
    have hf := finds_operatorDocument_iff hfinds d f hq hpaths.1 hcontains.1
    obtain ⟨queries, rfl, -, hall, hany⟩ :=
      finds_operatorDocuments_iff hfinds d fs hrest hpaths.2 hcontains.2
    refine ⟨q :: queries, rfl, fun _ => List.cons_ne_nil q queries, ?_, ?_⟩
    · rw [List.forall_mem_cons, hf, hall, acceptsAll, Bool.and_eq_true]
    · rw [List.exists_mem_cons_iff, hf, hany, acceptsAny, Bool.or_eq_true]

end

/-- For filters that ask fields what they contain in certain ways only, a server finds with all of
them what they accept exactly if each of these ways is answered alike. -/
theorem finds_iff_accepts_iff (hfinds : FindsByOperators finds) (d : Document)
    (asked : Set (Path × Value))
    (hasked : ∀ c ∈ asked, Path.ofString c.1.text = c.1) :
    (∀ (f : Filter) (q : Document), f.operatorDocument = .ok q →
      (∀ path ∈ f.paths, Path.ofString path.text = path) → (∀ c ∈ f.containments, c ∈ asked) →
        (finds q d ↔ f.accepts d)) ↔
    ∀ c ∈ asked, Operator.ContainsAlike (d.lookup c.1) c.2 := by
  constructor
  · rintro h ⟨path, literal⟩ hc
    have hpath := hasked _ hc
    have hcontains := Operator.finds_containsDocument_iff hfinds d path.text literal
    rw [hpath] at hcontains
    refine hcontains.mp (h (comparison path .contains literal) _ rfl ?_ ?_)
    · simpa [paths] using hpath
    · simpa [containments] using hc
  · exact fun h f q hq hpaths hf =>
      finds_operatorDocument_iff hfinds d f hq hpaths fun c hc => h c (hf c hc)

end Filter

namespace Operator

open Text

/-- Whether a field with these values meets the condition of one operator. -/
def meetsSign (values : List Value) (sign : String) (v : Value) : Bool :=
  match (signs ++ listSigns).lookup sign, v with
  | some op, _ => op.holds values v
  | none, .bool expected => sign = "$exists" && (!values.isEmpty) == expected
  | none, .string pattern =>
    sign = "$regex" && anyCandidate values (·.isStringWith (patternOccursIn pattern.toList))
  | none, .array items => sign = "$all" && !items.isEmpty && items.all (holdsEq values)
  | none, _ => false

mutual

/-- Whether a field with these values meets the conditions of a document. -/
def meets (values : List Value) : Value → Bool
  | .document conditions => meetsAll values conditions
  | _ => false

def meetsAll (values : List Value) : List (String × Value) → Bool
  | [] => true
  | (sign, v) :: rest =>
    (if sign = "$not" then !meets values v else meetsSign values sign v) && meetsAll values rest

end

mutual

/-- A server that reads documents of operators: whether it finds this stored document. -/
def finds (d : Document) : List (String × Value) → Bool
  | [] => true
  | (field, .document conditions) :: rest =>
    meetsAll (d.lookup (Path.ofString field)) conditions && finds d rest
  | (sign, .array queries) :: rest =>
    (if sign = "$and" then findsAll d queries
      else if sign = "$or" then findsAny d queries
      else sign = "$nor" && !findsAny d queries) && finds d rest
  | _ :: _ => false

def findsAll (d : Document) : List Value → Bool
  | [] => true
  | .document query :: rest => finds d query && findsAll d rest
  | _ :: _ => false

def findsAny (d : Document) : List Value → Bool
  | [] => false
  | .document query :: rest => finds d query || findsAny d rest
  | _ :: rest => findsAny d rest

end

theorem findsAll_map (d : Document) (qs : List Document) :
    findsAll d (qs.map .document) ↔ ∀ q ∈ qs, finds d q := by
  induction qs with
  | nil => simp [findsAll]
  | cons q qs ih => simp [findsAll, ih]

theorem findsAny_map (d : Document) (qs : List Document) :
    findsAny d (qs.map .document) ↔ ∃ q ∈ qs, finds d q := by
  induction qs with
  | nil => simp [findsAny]
  | cons q qs ih => simp [findsAny, ih]

theorem finds_field (d : Document) (field : String) {sign : String} (v : Value)
    (h : sign ≠ "$not") : finds d [(field, .document [(sign, v)])] =
      meetsSign (d.lookup (Path.ofString field)) sign v := by
  simp [finds, meetsAll, h]

theorem finds_field_of_mem (d : Document) (field : String) (v : Value) {sign : String}
    {op : Operator} (h : (sign, op) ∈ signs ++ listSigns) :
    finds d [(field, .document [(sign, v)])] = op.holds (d.lookup (Path.ofString field)) v := by
  have hnot : sign ≠ "$not" := by
    rintro rfl
    simp [signs, listSigns] at h
  have hlookup : (signs ++ listSigns).lookup sign = some op :=
    lookup_of_mem (by decide) h
  rw [finds_field d field v hnot]
  simp only [meetsSign, hlookup]

theorem findsByOperators_finds : FindsByOperators fun q d => finds d q where
  empty d := by simp [finds]
  and d qs _ := by simpa [finds] using findsAll_map d qs
  or d qs _ := by simpa [finds] using findsAny_map d qs
  nor d qs _ := by simpa [finds] using not_congr (findsAny_map d qs)
  not d field condition := by simp [finds, meetsAll, meets]
  sign d field literal sign op h := by
    rw [finds_field_of_mem d field literal (List.mem_append_left _ h)]
  listSign d field items sign op h := by
    rw [finds_field_of_mem d field (.array items) (List.mem_append_right _ h)]
  exist d field expected := by
    have hlookup : (signs ++ listSigns).lookup "$exists" = none := by decide
    rw [finds_field d field _ (by decide)]
    simp [meetsSign, hlookup]
  pattern d field text op before after h := by
    have hlookup : (signs ++ listSigns).lookup "$regex" = none := by decide
    rw [pattern, finds_field d field _ (by decide)]
    simp only [anchors, List.mem_cons, Prod.mk.injEq, List.not_mem_nil, or_false] at h
    obtain ⟨rfl, rfl, rfl⟩ | ⟨rfl, rfl, rfl⟩ | ⟨rfl, rfl, rfl⟩ := h
    · simp [meetsSign, hlookup, patternOccursIn_literalPattern, holds, holdsContains]
    · simp [meetsSign, hlookup, patternOccursIn_caret, holds]
    · simp [meetsSign, hlookup, patternOccursIn_dollar, holds]
  every d field items := by
    have hlookup : (signs ++ listSigns).lookup "$all" = none := by decide
    have hsign : ("$eq", eq) ∈ signs ++ listSigns := List.mem_cons_self ..
    have heq (item : Value) := finds_field_of_mem d field item hsign
    rw [finds_field d field _ (by decide)]
    simp [meetsSign, hlookup, heq, holds]

end Operator

namespace Filter

theorem finds_iff_accepts_of_one_array :
    let tags : Path := ⟨"tags", []⟩
    let d : Document := [("tags", .array [.string "a.b", .string "c"])]
    let asked : Set (Path × Value) :=
      {c | c = (tags, .array [.string "c", .string "a.b"]) ∨ c = (tags, .string "a.")}
    FindsByOperators (fun q d => Operator.finds d q) ∧
      (∀ c ∈ asked, Path.ofString c.1.text = c.1) ∧
      ∀ (f : Filter) (q : Document), f.operatorDocument = .ok q →
        (∀ path ∈ f.paths, Path.ofString path.text = path) → (∀ c ∈ f.containments, c ∈ asked) →
          (Operator.finds d q ↔ f.accepts d) := by
  intro tags d asked
  have hasked : ∀ c ∈ asked, Path.ofString c.1.text = c.1 := by
    rintro c (rfl | rfl) <;> decide
  refine ⟨Operator.findsByOperators_finds, hasked,
    (finds_iff_accepts_iff Operator.findsByOperators_finds d asked hasked).mpr ?_⟩
  rintro c (rfl | rfl)
  · exact Operator.containsAlike_of_array (by simp) (by simp [Value.valueClass])
  · trivial

/-- Every array holds all values of the empty list, and no server finds it. -/
theorem not_finds_of_empty_list : ∃ (f : Filter) (q d : Document),
    f.operatorDocument = .ok q ∧ (∀ path ∈ f.paths, Path.ofString path.text = path) ∧
      f.accepts d ∧ ∀ finds, FindsByOperators finds → ¬ finds q d := by
  refine ⟨.comparison ⟨"tags", []⟩ .contains (.array []), _, [("tags", .array [])], rfl, ?_, ?_,
    fun finds hfinds => ?_⟩
  · simp only [paths]
    decide
  · decide
  · change ¬ finds [("tags", .document [("$all", .array [])])] _
    rw [hfinds.every]
    simp

end Filter

end Docbase
