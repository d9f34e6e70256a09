import Marginalia.Report.Outline

/-!
# What an outline tells

Every diagnostic of an outline is one of the tree, and the source of its labels is the source of
one of the tree.
-/

namespace Marginalia

namespace Diagnostic

variable {L C : Type}

mutual

/-- What a diagnostic and everything related to it says, from top to bottom. -/
def statements : Diagnostic L C → List (Facts L C)
  | alone facts => [facts]
  | group facts related => facts :: allStatements related

/-- What diagnostics say one after the other. -/
def allStatements : List (Diagnostic L C) → List (Facts L C)
  | [] => []
  | diagnostic :: rest => statements diagnostic ++ allStatements rest

end

end Diagnostic

variable {κ : Type}

/-- An entry that tells one of some statements, with the source of one of them or one inherited. -/
def Entry.Tells (given : List (Statement κ)) (inherited : Option Source) : Entry κ → Prop
  | told _ facts source =>
    facts ∈ given ∧ ∀ s, source = some s → inherited = some s ∨ ∃ f ∈ given, f.source = some s
  | omitted _ _ => True

theorem Entry.Tells.weaken {given more : List (Statement κ)} {source inherited : Option Source}
    {e : Entry κ} (tells : e.Tells given source) (within : given ⊆ more)
    (known : ∀ s, source = some s → inherited = some s ∨ ∃ f ∈ more, f.source = some s) :
    e.Tells more inherited := by
  cases e with
  | omitted => trivial
  | told depth facts shown =>
    refine ⟨within tells.1, fun s found => ?_⟩
    rcases tells.2 s found with given_source | ⟨f, member, f_source⟩
    · exact known s given_source
    · exact .inr ⟨f, within member, f_source⟩

namespace Report

open Diagnostic (statements allStatements)

/-- The source of a diagnostic is its own or else the inherited one. -/
theorem source_known {facts : Statement κ} {given : List (Statement κ)} (member : facts ∈ given)
    {inherited : Option Source} {s : Source} (found : (facts.source <|> inherited) = some s) :
    inherited = some s ∨ ∃ f ∈ given, f.source = some s := by
  cases own : facts.source with
  | none =>
    rw [own] at found
    exact .inl found
  | some t =>
    rw [own] at found
    exact .inr ⟨facts, member, own.trans found⟩

mutual

theorem outlineFrom_tells (limit depth : Nat) (inherited : Option Source) :
    ∀ report : Report κ, ∀ e ∈ outlineFrom limit depth inherited report,
      e.Tells report.statements inherited
  | .alone facts, e, member => by
    cases List.mem_singleton.mp member
    exact ⟨by simp [statements], fun s found => source_known (by simp [statements]) found⟩
  | .group facts related, e, member => by
    rw [outlineFrom] at member
    have head : facts ∈ (Diagnostic.group facts related).statements := by simp [statements]
    have known (s : Source) (found : (facts.source <|> inherited) = some s) := source_known head found
    rcases List.mem_cons.mp member with rfl | member
    · exact ⟨head, known⟩
    · split at member
      · exact absurd member List.not_mem_nil
      · split at member
        · cases List.mem_singleton.mp member
          trivial
        · have tells := outlineAll_tells limit (depth + 1) (facts.source <|> inherited) related e member
          exact tells.weaken (by simp [statements]) known

theorem outlineAll_tells (limit depth : Nat) (inherited : Option Source) :
    ∀ related : List (Report κ), ∀ e ∈ outlineAll limit depth inherited related,
      e.Tells (allStatements related) inherited
  | [], e, member => absurd member (by simp [outlineAll])
  | report :: rest, e, member => by
    rw [outlineAll] at member
    rcases List.mem_append.mp member with member | member
    · exact (outlineFrom_tells limit depth inherited report e member).weaken
        (by simp [allStatements]) fun s found => .inl found
    · exact (outlineAll_tells limit depth inherited rest e member).weaken
        (by simp [allStatements]) fun s found => .inl found

end

/-- An outline tells nothing but the tree: the diagnostics and the sources are its own. -/
theorem outline_tells (limit : Nat) (report : Report κ) :
    ∀ e ∈ report.outline limit, e.Tells report.statements none :=
  outlineFrom_tells limit 0 none report

end Report

end Marginalia
