import Mathlib.Data.List.Infix
import Mathlib.Data.List.Sort
import Marginalia.Diagnostic.Basic

/-!
# Places in a tree of diagnostics

A place says for each level which of the related diagnostics to go on to, so its length is how deep
it is nested.  As lists of numbers places are ordered like words: a diagnostic comes in front of
everything below it, and everything below it in front of the next one beside it.
-/

namespace Marginalia.Diagnostic

variable {L C : Type}

/-- The diagnostics related to one. -/
def related : Diagnostic L C → List (Diagnostic L C)
  | alone _ => []
  | group _ related => related

/-- The diagnostic at a place, if there is one. -/
def at? : List Nat → Diagnostic L C → Option (Diagnostic L C)
  | [], d => some d
  | i :: place, d => d.related[i]?.bind (at? place)

/-- The last of the sources that are met on the way down to a place. -/
def sourceAt (d : Diagnostic L C) (place : List Nat) : Option Source :=
  (place.inits.filterMap fun above => (at? above d).bind (·.facts.source)).getLast?

/-- The places down to a level in their order. -/
def places : Nat → Diagnostic L C → List (List Nat)
  | 0, _ => [[]]
  | levels + 1, d =>
    [] :: d.related.zipIdx.flatMap fun (child, i) => (places levels child).map (i :: ·)

theorem at?_cons {d child : Diagnostic L C} {i : Nat} (found : d.related[i]? = some child)
    (place : List Nat) : at? (i :: place) d = at? place child := by
  rw [at?, found, Option.bind_some]

theorem sourceAt_nil (d : Diagnostic L C) : d.sourceAt [] = d.facts.source := by
  cases own : d.facts.source <;> simp [sourceAt, at?, own]

/-- A source below goes before one above. -/
theorem sourceAt_cons {d child : Diagnostic L C} {i : Nat} (found : d.related[i]? = some child)
    (place : List Nat) : d.sourceAt (i :: place) = (child.sourceAt place).or d.facts.source := by
  have below : ((place.inits.map (i :: ·)).filterMap fun above =>
      (at? above d).bind (·.facts.source)).getLast? = child.sourceAt place := by
    rw [List.filterMap_map, sourceAt]
    simp only [Function.comp_def, at?_cons found]
  rw [sourceAt, List.inits_cons, ← List.singleton_append, List.filterMap_append,
    List.getLast?_append, below]
  exact congrArg _ (sourceAt_nil d)

theorem mem_places_iff {levels : Nat} {d : Diagnostic L C} {place : List Nat} :
    place ∈ places levels d ↔ place.length ≤ levels ∧ (at? place d).isSome = true := by
  induction levels generalizing d place with
  | zero => cases place <;> simp [places, at?]
  | succ levels ih =>
    cases place with
    | nil => simp [places, at?]
    | cons i place =>
      simp only [places, List.mem_cons, reduceCtorEq, false_or, List.mem_flatMap, List.mem_map,
        List.cons.injEq, List.length_cons, Nat.add_le_add_iff_right]
      constructor
      · rintro ⟨⟨child, j⟩, child_member, _, member, rfl, rfl⟩
        rw [at?_cons (List.mem_zipIdx_iff_getElem?.mp child_member)]
        exact ih.mp member
      · rintro ⟨length_le, present⟩
        obtain ⟨child, found⟩ := Option.isSome_iff_exists.mp (Option.isSome_of_isSome_bind present)
        rw [at?_cons found] at present
        exact ⟨(child, i), List.mem_zipIdx_iff_getElem?.mpr found, place,
          ih.mpr ⟨length_le, present⟩, rfl, rfl⟩

theorem places_ascending (levels : Nat) (d : Diagnostic L C) :
    (places levels d).Pairwise (· < ·) := by
  induction levels generalizing d with
  | zero => exact List.pairwise_singleton _ _
  | succ levels ih =>
    refine List.pairwise_cons.mpr ⟨?_, List.pairwise_flatMap.mpr ⟨?_, ?_⟩⟩
    · intro place member
      obtain ⟨⟨child, i⟩, -, below⟩ := List.mem_flatMap.mp member
      obtain ⟨_, -, rfl⟩ := List.mem_map.mp below
      exact List.nil_lt_cons _ _
    · rintro ⟨child, i⟩ -
      exact List.pairwise_map.mpr ((ih child).imp fun lt => List.cons_lt_cons_self.mpr lt)
    · have indices : (d.related.zipIdx.map Prod.snd).Pairwise (· < ·) := by
        rw [List.zipIdx_map_snd]
        exact List.pairwise_lt_range'
      refine (List.pairwise_map.mp indices).imp fun {x y} lt place member other other_member => ?_
      obtain ⟨_, -, rfl⟩ := List.mem_map.mp member
      obtain ⟨_, -, rfl⟩ := List.mem_map.mp other_member
      exact List.cons_lt_cons_iff.mpr (.inl lt)

/-! ## Trees that agree down to a level -/

/-- Trees that say the same down to a level and have as many diagnostics below each one on it. -/
def Agrees (levels : Nat) (d e : Diagnostic L C) : Prop :=
  ∀ place : List Nat, place.length ≤ levels →
    (at? place d).map (fun r => (r.facts, r.related.length)) =
      (at? place e).map (fun r => (r.facts, r.related.length))

variable {levels : Nat} {d e : Diagnostic L C}

theorem Agrees.facts_eq (agrees : Agrees levels d e) {place : List Nat}
    (length_le : place.length ≤ levels) :
    (at? place d).map facts = (at? place e).map facts := by
  have same := congrArg (Option.map Prod.fst) (agrees place length_le)
  simpa [Function.comp_def] using same

theorem Agrees.places_eq (agrees : Agrees levels d e) : places levels d = places levels e := by
  refine (places_ascending levels d).eq_of_mem_iff (places_ascending levels e) fun place => ?_
  rw [mem_places_iff, mem_places_iff]
  refine and_congr_right fun length_le => ?_
  have present := congrArg Option.isSome (agrees.facts_eq length_le)
  rw [Option.isSome_map, Option.isSome_map] at present
  rw [present]

theorem Agrees.sourceAt_eq (agrees : Agrees levels d e) {place : List Nat}
    (length_le : place.length ≤ levels) : d.sourceAt place = e.sourceAt place := by
  have source_eq (r : Option (Diagnostic L C)) :
      r.bind (·.facts.source) = (r.map facts).bind Facts.source := by
    cases r <;> rfl
  have sources_eq : (place.inits.filterMap fun above => (at? above d).bind (·.facts.source)) =
      place.inits.filterMap fun above => (at? above e).bind (·.facts.source) := by
    refine List.filterMap_congr fun above member => ?_
    have above_le := ((List.mem_inits above place).mp member).length_le
    rw [source_eq, source_eq, agrees.facts_eq (Nat.le_trans above_le length_le)]
  rw [sourceAt, sourceAt, sources_eq]

end Marginalia.Diagnostic
