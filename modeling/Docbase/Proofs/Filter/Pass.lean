import Docbase.DocumentType.Resolution
import Docbase.Filter.Matching
import Docbase.OperatorDocument
import Docbase.Proofs.Except

namespace Docbase

namespace Filter

mutual

/-- How many conditions are inside each other; a condition on a field has height 1. -/
def height : Filter → Nat
  | all parts => heightIn parts + 1
  | any parts => heightIn parts + 1
  | negation inner => height inner + 1
  | present .. => 1
  | comparison .. => 1

def heightIn : List Filter → Nat
  | [] => 0
  | f :: rest => max (height f) (heightIn rest)

end

variable {f g : Filter} {parts : List Filter}

theorem heightIn_append (fs gs : List Filter) :
    heightIn (fs ++ gs) = max (heightIn fs) (heightIn gs) := by
  induction fs with
  | nil => simp [heightIn]
  | cons f fs ih => rw [List.cons_append, heightIn, heightIn, ih, Nat.max_assoc]

@[simp]
theorem height_all : (all parts).height = heightIn parts + 1 := by rw [height]

@[simp]
theorem height_any : (any parts).height = heightIn parts + 1 := by rw [height]

@[simp]
theorem height_not : f.not.height = f.height + 1 := by rw [Filter.not, height]

@[simp]
theorem heightIn_pair : heightIn [f, g] = max f.height g.height := by
  rw [heightIn, heightIn, heightIn, Nat.max_zero]

theorem height_all_and : ((all parts).and g).height = max (all parts).height (g.height + 1) := by
  rw [Filter.and, height_all, height_all, heightIn_append, heightIn, heightIn]
  omega

theorem height_any_or : ((any parts).or g).height = max (any parts).height (g.height + 1) := by
  rw [Filter.or, height_any, height_any, heightIn_append, heightIn, heightIn]
  omega

theorem and_eq_pair (h : ∀ parts, f ≠ all parts) : f.and g = all [f, g] := by
  rw [Filter.and]
  exact h

theorem or_eq_pair (h : ∀ parts, f ≠ any parts) : f.or g = any [f, g] := by
  rw [Filter.or]
  exact h

theorem height_and_le : (f.and g).height ≤ max f.height g.height + 1 := by
  by_cases h : ∃ parts, f = all parts
  · obtain ⟨parts, rfl⟩ := h
    rw [height_all_and]
    omega
  · refine Nat.le_of_eq ?_
    rw [and_eq_pair fun parts hf => h ⟨parts, hf⟩, height_all, heightIn_pair]

theorem height_or_le : (f.or g).height ≤ max f.height g.height + 1 := by
  by_cases h : ∃ parts, f = any parts
  · obtain ⟨parts, rfl⟩ := h
    rw [height_any_or]
    omega
  · refine Nat.le_of_eq ?_
    rw [or_eq_pair fun parts hf => h ⟨parts, hf⟩, height_any, heightIn_pair]

theorem exists_and_eq (f g : Filter) : ∃ parts, f.and g = all parts := by
  unfold Filter.and
  split <;> exact ⟨_, rfl⟩

theorem exists_or_eq (f g : Filter) : ∃ parts, f.or g = any parts := by
  unfold Filter.or
  split <;> exact ⟨_, rfl⟩

end Filter

/-- What a pass makes of a filter from what it makes of the parts. -/
structure Pass (α : Type) where
  all : List α → α
  any : List α → α
  negation : α → α
  present : Path → Bool → α
  comparison : Path → Operator → Value → α

namespace Pass

variable {α : Type}

mutual

def run (p : Pass α) : Filter → α
  | .all parts => p.all (runAll p parts)
  | .any parts => p.any (runAll p parts)
  | .negation inner => p.negation (run p inner)
  | .present path expected => p.present path expected
  | .comparison path op v => p.comparison path op v

def runAll (p : Pass α) : List Filter → List α
  | [] => []
  | f :: rest => run p f :: runAll p rest

end

/-- The pass with no more than `limit` calls inside each other. -/
def within (p : Pass α) : (limit : Nat) → Filter → Option α
  | 0, _ => none
  | limit + 1, .all parts => (parts.mapM (within p limit)).map p.all
  | limit + 1, .any parts => (parts.mapM (within p limit)).map p.any
  | limit + 1, .negation inner => (within p limit inner).map p.negation
  | _ + 1, .present path expected => some (p.present path expected)
  | _ + 1, .comparison path op v => some (p.comparison path op v)

mutual

theorem within_eq (p : Pass α) (limit : Nat) :
    ∀ f : Filter, p.within limit f = if f.height ≤ limit then some (p.run f) else none
  | .all parts => by
    cases limit with
    | zero => simp [within]
    | succ limit =>
      rw [within, mapM_within_eq p limit parts, run, Filter.height_all]
      simp only [Nat.add_le_add_iff_right]
      split <;> rfl
  | .any parts => by
    cases limit with
    | zero => simp [within]
    | succ limit =>
      rw [within, mapM_within_eq p limit parts, run, Filter.height_any]
      simp only [Nat.add_le_add_iff_right]
      split <;> rfl
  | .negation inner => by
    cases limit with
    | zero => simp [within, Filter.height]
    | succ limit =>
      rw [within, within_eq p limit inner, run, Filter.height]
      simp only [Nat.add_le_add_iff_right]
      split <;> rfl
  | .present path expected => by
    cases limit with
    | zero => simp [within, Filter.height]
    | succ limit => simp [within, Filter.height, run]
  | .comparison path op v => by
    cases limit with
    | zero => simp [within, Filter.height]
    | succ limit => simp [within, Filter.height, run]

theorem mapM_within_eq (p : Pass α) (limit : Nat) : ∀ parts : List Filter,
    parts.mapM (p.within limit) =
      if Filter.heightIn parts ≤ limit then some (p.runAll parts) else none
  | [] => by simp [Filter.heightIn, runAll]
  | f :: rest => by
    rw [List.mapM_cons, within_eq p limit f, mapM_within_eq p limit rest, Filter.heightIn, runAll]
    simp only [Nat.max_le]
    by_cases hf : f.height ≤ limit
    · by_cases hrest : Filter.heightIn rest ≤ limit
      · simp [hf, hrest]
      · simp [hf, hrest]
    · simp [hf]

end

def evaluation (d : Document) : Pass Bool where
  all truths := truths.all id
  any truths := truths.any id
  negation truth := !truth
  present path expected := (!(d.lookup path).isEmpty) == expected
  comparison path op v := op.holds (d.lookup path) v

mutual

theorem run_evaluation (d : Document) : ∀ f : Filter, (evaluation d).run f = f.accepts d
  | .all parts => by
    rw [run, Filter.accepts]
    exact (runAll_evaluation d parts).1
  | .any parts => by
    rw [run, Filter.accepts]
    exact (runAll_evaluation d parts).2
  | .negation inner => by
    rw [run, Filter.accepts, run_evaluation d inner]
    rfl
  | .present .. => by rw [run, Filter.accepts]; rfl
  | .comparison .. => by rw [run, Filter.accepts]; rfl

theorem runAll_evaluation (d : Document) : ∀ parts : List Filter,
    ((evaluation d).runAll parts).all id = Filter.acceptsAll d parts ∧
      ((evaluation d).runAll parts).any id = Filter.acceptsAny d parts
  | [] => by rw [runAll, Filter.acceptsAll, Filter.acceptsAny]; exact ⟨rfl, rfl⟩
  | f :: rest => by
    obtain ⟨hall, hany⟩ := runAll_evaluation d rest
    rw [runAll, Filter.acceptsAll, Filter.acceptsAny, List.all_cons, List.any_cons, hall, hany,
      id, run_evaluation d f]
    exact ⟨rfl, rfl⟩

end

def resolution (T : DocumentType) : Pass (Except Failure Filter) where
  all results := do .ok (.all (← results.mapM id))
  any results := do .ok (.any (← results.mapM id))
  negation result := do .ok (.negation (← result))
  present path expected := do .ok (.present (← T.resolvePath path) expected)
  comparison path op v := do
    let path ← T.resolvePath path
    .ok (.comparison path op (if path = Path.identity then T.normalizeLiteral op v else v))

mutual

theorem run_resolution (T : DocumentType) : ∀ f : Filter, (resolution T).run f = T.resolveFilter f
  | .all parts => by
    rw [run, DocumentType.resolveFilter, ← mapM_runAll_resolution T parts]
    rfl
  | .any parts => by
    rw [run, DocumentType.resolveFilter, ← mapM_runAll_resolution T parts]
    rfl
  | .negation inner => by
    rw [run, DocumentType.resolveFilter, run_resolution T inner]
    rfl
  | .present .. => by rw [run, DocumentType.resolveFilter]; rfl
  | .comparison .. => by rw [run, DocumentType.resolveFilter]; rfl

theorem mapM_runAll_resolution (T : DocumentType) : ∀ parts : List Filter,
    ((resolution T).runAll parts).mapM id = T.resolveFilters parts
  | [] => by rw [runAll, DocumentType.resolveFilters]; rfl
  | f :: rest => by
    rw [runAll, DocumentType.resolveFilters, List.mapM_cons, mapM_runAll_resolution T rest, id,
      run_resolution T f]
    rfl

end

def translation : Pass (Except Misuse Document) where
  all results := if results.isEmpty then .ok []
    else do .ok [("$and", .array (← results.mapM (·.map Value.document)))]
  any results := if results.isEmpty then .ok [("$nor", .array [.document []])]
    else do .ok [("$or", .array (← results.mapM (·.map Value.document)))]
  negation result := do .ok [("$nor", .array [.document (← result)])]
  present path expected := .ok [(path.text, .document [("$exists", .bool expected)])]
  comparison path op v := do .ok [(path.text, .document (← op.document v))]

mutual

theorem run_translation : ∀ f : Filter, translation.run f = f.operatorDocument
  | .all [] => by rw [run, runAll, Filter.operatorDocument]; rfl
  | .all (f :: rest) => by
    rw [run, Filter.operatorDocument, ← mapM_runAll_translation (f :: rest)]
    · rw [runAll]
      rfl
    · nofun
  | .any [] => by rw [run, runAll, Filter.operatorDocument]; rfl
  | .any (f :: rest) => by
    rw [run, Filter.operatorDocument, ← mapM_runAll_translation (f :: rest)]
    · rw [runAll]
      rfl
    · nofun
  | .negation inner => by
    rw [run, Filter.operatorDocument, run_translation inner]
    rfl
  | .present .. => by rw [run, Filter.operatorDocument]; rfl
  | .comparison .. => by rw [run, Filter.operatorDocument]; rfl

theorem mapM_runAll_translation : ∀ parts : List Filter,
    (translation.runAll parts).mapM (·.map Value.document) = Filter.operatorDocuments parts
  | [] => by rw [runAll, Filter.operatorDocuments]; rfl
  | f :: rest => by
    rw [runAll, Filter.operatorDocuments, List.mapM_cons, mapM_runAll_translation rest,
      run_translation f]
    cases f.operatorDocument <;> rfl

end

end Pass

mutual

theorem height_of_resolveFilter {T : DocumentType} :
    ∀ {f g : Filter}, T.resolveFilter f = .ok g → g.height = f.height
  | .all parts, g, h => by
    rw [DocumentType.resolveFilter] at h
    obtain ⟨resolved, hparts, hg⟩ := exists_of_bind_eq_ok h
    obtain rfl := Except.ok.inj hg
    rw [Filter.height_all, Filter.height_all, heightIn_of_resolveFilters hparts]
  | .any parts, g, h => by
    rw [DocumentType.resolveFilter] at h
    obtain ⟨resolved, hparts, hg⟩ := exists_of_bind_eq_ok h
    obtain rfl := Except.ok.inj hg
    rw [Filter.height_any, Filter.height_any, heightIn_of_resolveFilters hparts]
  | .negation inner, g, h => by
    rw [DocumentType.resolveFilter] at h
    obtain ⟨resolved, hinner, hg⟩ := exists_of_bind_eq_ok h
    obtain rfl := Except.ok.inj hg
    rw [Filter.height, Filter.height, height_of_resolveFilter hinner]
  | .present .., g, h => by
    rw [DocumentType.resolveFilter] at h
    obtain ⟨_, -, hg⟩ := exists_of_bind_eq_ok h
    obtain rfl := Except.ok.inj hg
    rw [Filter.height, Filter.height]
  | .comparison .., g, h => by
    rw [DocumentType.resolveFilter] at h
    obtain ⟨_, -, hg⟩ := exists_of_bind_eq_ok h
    obtain rfl := Except.ok.inj hg
    rw [Filter.height, Filter.height]

theorem heightIn_of_resolveFilters {T : DocumentType} :
    ∀ {fs gs : List Filter}, T.resolveFilters fs = .ok gs → Filter.heightIn gs = Filter.heightIn fs
  | [], gs, h => by
    rw [DocumentType.resolveFilters] at h
    obtain rfl := Except.ok.inj h
    rfl
  | f :: rest, gs, h => by
    rw [DocumentType.resolveFilters] at h
    obtain ⟨g, hf, h⟩ := exists_of_bind_eq_ok h
    obtain ⟨others, hrest, hgs⟩ := exists_of_bind_eq_ok h
    obtain rfl := Except.ok.inj hgs
    rw [Filter.heightIn, Filter.heightIn, height_of_resolveFilter hf,
      heightIn_of_resolveFilters hrest]

end

end Docbase
