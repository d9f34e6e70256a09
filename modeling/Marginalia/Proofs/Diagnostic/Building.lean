import Mathlib.Data.List.Basic
import Marginalia.Diagnostic.Build
import Marginalia.Proofs.Report.Outline

/-!
# What is built

A diagnostic is refused for the first of its labels that is not valid, in the order in which the
tree is read from top to bottom.  Otherwise it is built by tidying what each diagnostic of the tree
says, and what is tidy stays as it is when it is built again.
-/

namespace Marginalia

/-! ## Refusals -/

section

variable {ε α β γ : Type}

/-- A value, unless something was refused. -/
def unlessRefused (refused : Option ε) (value : α) : Except ε α :=
  match refused with
  | none => .ok value
  | some error => .error error

theorem map_unlessRefused (f : α → β) (refused : Option ε) (value : α) :
    f <$> unlessRefused refused value = unlessRefused refused (f value) := by
  cases refused <;> rfl

/-- Of two values one after the other, what is refused first counts. -/
theorem unlessRefused_bind (f : α → β → γ) (refused later : Option ε) (first : α) (second : β) :
    (do
      let found ← unlessRefused refused first
      let others ← unlessRefused later second
      return f found others) =
    unlessRefused (refused.or later) (f first second) := by
  cases refused with
  | some error => rfl
  | none => exact map_unlessRefused (f first) later second

theorem unlessRefused_eq_ok_iff {refused : Option ε} {value found : α} :
    unlessRefused refused value = .ok found ↔ refused = none ∧ value = found := by
  cases refused with
  | none => simp [unlessRefused]
  | some error => simp [unlessRefused]

theorem unlessRefused_eq_error_iff {refused : Option ε} {value : α} {error : ε} :
    unlessRefused refused value = .error error ↔ refused = some error := by
  cases refused with
  | none => simp [unlessRefused]
  | some error => simp [unlessRefused]

end

variable {κ : Type}

/-! ## Labels -/

namespace Label

/-- The label that says nothing about being primary unless it claims to be. -/
def tidied (l : Label κ) : Label κ := { l with primary := if l.isPrimary then some true else none }

@[simp] theorem span_tidied (l : Label κ) : l.tidied.span = l.span := rfl

@[simp] theorem isPrimary_tidied (l : Label κ) : l.tidied.isPrimary = l.isPrimary := by
  cases claims : l.isPrimary with
  | false =>
    rw [tidied, claims]
    rfl
  | true =>
    rw [tidied, claims]
    rfl

@[simp] theorem tidied_tidied (l : Label κ) : l.tidied.tidied = l.tidied := by
  have same : l.tidied.isPrimary = l.isPrimary := l.isPrimary_tidied
  rw [tidied, same]
  rfl

variable [Coordinate κ]

/-- What the first of some labels that is not valid is refused with. -/
def refusal (labels : List (Label κ)) : Option (SpanError κ) :=
  (labels.find? fun l => ¬ l.span.Valid).map fun l => .invalid l.span

theorem refusal_append (front behind : List (Label κ)) :
    refusal (front ++ behind) = (refusal front).or (refusal behind) := by
  rw [refusal, List.find?_append, Option.map_or]
  rfl

theorem refusal_eq_none_iff {labels : List (Label κ)} :
    refusal labels = none ↔ ∀ l ∈ labels, l.span.Valid := by
  simp [refusal]

/-- The label that is refused is not valid, and all in front of it are. -/
theorem refusal_eq_some_iff {labels : List (Label κ)} {error : SpanError κ} :
    refusal labels = some error ↔ ∃ front l behind, labels = front ++ l :: behind ∧
      (∀ k ∈ front, k.span.Valid) ∧ ¬ l.span.Valid ∧ error = .invalid l.span := by
  rw [refusal, Option.map_eq_some_iff]
  constructor
  · rintro ⟨l, found, rfl⟩
    obtain ⟨refused, front, behind, split, valid⟩ := List.find?_eq_some_iff_append.mp found
    exact ⟨front, l, behind, split, by simpa using valid, by simpa using refused, rfl⟩
  · rintro ⟨front, l, behind, split, valid, refused, rfl⟩
    refine ⟨l, List.find?_eq_some_iff_append.mpr ⟨?_, front, behind, split, ?_⟩, rfl⟩
    · simpa using refused
    · simpa using valid

theorem build_eq (l : Label κ) : l.build = unlessRefused (refusal [l]) l.tidied := by
  rw [build, create, Span.create, Span.checked, refusal]
  by_cases valid : l.span.Valid
  · rw [if_pos valid, List.find?_cons_of_neg (by simpa using valid)]
    rfl
  · rw [if_neg valid, List.find?_cons_of_pos (by simpa using valid)]
    rfl

theorem mapM_build (labels : List (Label κ)) :
    labels.mapM build = unlessRefused (refusal labels) (labels.map tidied) := by
  induction labels with
  | nil => rfl
  | cons l rest ih =>
    have parts : refusal (l :: rest) = (refusal [l]).or (refusal rest) := refusal_append [l] rest
    rw [List.mapM_cons, build_eq, ih, parts]
    exact unlessRefused_bind List.cons _ _ _ _

end Label

/-! ## Trees -/

namespace Diagnostic

variable {L L' L'' C C' C'' : Type}

mutual

/-- A tree of diagnostics that say something else. -/
def map (f : Facts L C → Facts L' C') : Diagnostic L C → Diagnostic L' C'
  | alone facts => alone (f facts)
  | group facts related => group (f facts) (mapAll f related)

/-- Diagnostics one after the other that say something else. -/
def mapAll (f : Facts L C → Facts L' C') : List (Diagnostic L C) → List (Diagnostic L' C')
  | [] => []
  | diagnostic :: rest => map f diagnostic :: mapAll f rest

end

theorem mapAll_eq_map (f : Facts L C → Facts L' C') (related : List (Diagnostic L C)) :
    mapAll f related = related.map (map f) := by
  induction related with
  | nil => rfl
  | cons diagnostic rest ih => rw [mapAll, ih, List.map_cons]

section

variable (f : Facts L C → Facts L' C') (g : Facts L' C' → Facts L'' C'')

mutual

theorem map_map : ∀ d : Diagnostic L C, (d.map f).map g = d.map (g ∘ f)
  | alone _ => rfl
  | group facts related => congrArg (group (g (f facts))) (mapAll_mapAll related)

theorem mapAll_mapAll : ∀ related : List (Diagnostic L C),
    mapAll g (mapAll f related) = mapAll (g ∘ f) related
  | [] => rfl
  | diagnostic :: rest => congr (congrArg List.cons (map_map diagnostic)) (mapAll_mapAll rest)

end

mutual

theorem statements_map : ∀ d : Diagnostic L C, (d.map f).statements = d.statements.map f
  | alone _ => rfl
  | group facts related => congrArg (f facts :: ·) (allStatements_mapAll related)

theorem allStatements_mapAll : ∀ related : List (Diagnostic L C),
    allStatements (mapAll f related) = (allStatements related).map f
  | [] => rfl
  | diagnostic :: rest => by
    rw [mapAll, allStatements, allStatements, statements_map diagnostic,
      allStatements_mapAll rest, List.map_append]

end

end

/-- All labels of a tree from top to bottom. -/
def labels (d : Diagnostic L C) : List L := d.statements.flatMap Facts.allLabels

end Diagnostic

/-! ## Building -/

namespace Facts

/-- What a diagnostic says with its severity filled in and its labels tidied. -/
def tidied {C : Type} (f : Facts (Label κ) C) : Facts (Label κ) C :=
  { f with severity := some f.graveness, labels := f.labels.map (·.map Label.tidied) }

/-- What a diagnostic says once it is built. -/
def built (f : Facts (Label κ) CauseInput) : Statement κ :=
  { f.tidied with cause := f.cause.build }

theorem allLabels_tidied {C : Type} (f : Facts (Label κ) C) :
    f.tidied.allLabels = f.allLabels.map Label.tidied := by
  cases given : f.labels <;> simp [allLabels, tidied, given]

@[simp] theorem tidied_tidied {C : Type} (f : Facts (Label κ) C) : f.tidied.tidied = f.tidied := by
  cases given : f.labels <;> simp [tidied, graveness, given]

theorem build_eq [Coordinate κ] (f : Facts (Label κ) CauseInput) :
    f.build = unlessRefused (Label.refusal f.allLabels) f.built := by
  rw [build, built, tidied, allLabels]
  cases f.labels with
  | none => rfl
  | some labels =>
    dsimp only
    rw [Label.mapM_build, map_unlessRefused]
    exact map_unlessRefused _ _ _

end Facts

/-- A diagnostic that can be reported, taken as one from outside. -/
def Diagnostic.asInput (report : Report κ) : DiagnosticInput κ :=
  report.map fun f => { f with cause := .chain f.cause }

namespace Diagnostic

/-- A report that comes from outside is tidied where it is built. -/
theorem map_built_asInput (report : Report κ) :
    report.asInput.map Facts.built = report.map Facts.tidied := by
  rw [asInput, map_map]
  rfl

theorem labels_asInput (report : Report κ) : report.asInput.labels = report.labels := by
  rw [labels, asInput, statements_map, List.flatMap_map]
  rfl

/-- The labels of what was built are those of the input, tidied. -/
theorem labels_map_built (input : DiagnosticInput κ) :
    (input.map Facts.built).labels = input.labels.map Label.tidied := by
  rw [labels, labels, statements_map, List.flatMap_map, List.map_flatMap]
  exact List.flatMap_congr fun f _ => f.allLabels_tidied

variable [Coordinate κ]

mutual

/-- A tree is refused for the first label that is not valid, and else every diagnostic of it is
built in its place. -/
theorem build_eq : ∀ input : DiagnosticInput κ,
    input.build = unlessRefused (Label.refusal input.labels) (input.map Facts.built)
  | alone facts => by
    have labels_eq : (alone facts).labels = facts.allLabels := by simp [labels, statements]
    rw [build, facts.build_eq, labels_eq]
    exact map_unlessRefused alone _ _
  | group facts related => by
    have labels_eq : (group facts related).labels =
        facts.allLabels ++ (allStatements related).flatMap Facts.allLabels := by
      simp [labels, statements]
    rw [build, facts.build_eq, buildAll_eq related, labels_eq, Label.refusal_append]
    exact unlessRefused_bind group _ _ _ _

theorem buildAll_eq : ∀ related : List (DiagnosticInput κ),
    buildAll related =
      unlessRefused (Label.refusal ((allStatements related).flatMap Facts.allLabels))
        (mapAll Facts.built related)
  | [] => rfl
  | diagnostic :: rest => by
    rw [buildAll, build_eq diagnostic, buildAll_eq rest, allStatements, List.flatMap_append,
      Label.refusal_append, labels]
    exact unlessRefused_bind List.cons _ _ _ _

end

/-- A tree is refused for the first label from top to bottom that is not valid, and for nothing
else. -/
theorem build_eq_error_iff (input : DiagnosticInput κ) (error : SpanError κ) :
    input.build = .error error ↔ ∃ front l behind, input.labels = front ++ l :: behind ∧
      (∀ k ∈ front, k.span.Valid) ∧ ¬ l.span.Valid ∧ error = .invalid l.span := by
  rw [build_eq, unlessRefused_eq_error_iff, Label.refusal_eq_some_iff]

theorem exists_build_eq_ok_iff (input : DiagnosticInput κ) :
    (∃ built, input.build = .ok built) ↔ ∀ l ∈ input.labels, l.span.Valid := by
  simp only [build_eq, unlessRefused_eq_ok_iff, Label.refusal_eq_none_iff, exists_and_left,
    exists_eq', and_true]

/-- What was built stays the same when it is built again. -/
theorem build_asInput {input : DiagnosticInput κ} {built : Report κ}
    (builds : input.build = .ok built) : built.asInput.build = .ok built := by
  rw [build_eq, unlessRefused_eq_ok_iff, Label.refusal_eq_none_iff] at builds
  obtain ⟨valid, rfl⟩ := builds
  rw [build_eq, unlessRefused_eq_ok_iff, Label.refusal_eq_none_iff]
  constructor
  · rw [labels_asInput, labels_map_built]
    exact List.forall_mem_map.mpr valid
  · have tidy : Facts.tidied ∘ Facts.built = (Facts.built : Facts (Label κ) CauseInput → _) := by
      funext f
      exact congrArg (fun g : Facts (Label κ) CauseInput => { g with cause := f.cause.build })
        f.tidied_tidied
    rw [map_built_asInput, map_map, tidy]

end Diagnostic

end Marginalia
