import CompileCommands.HeaderTable
import Mathlib.Data.Finset.Card
import Mathlib.Data.List.Induction

/-!
# What a table of headers knows

A table that has recorded mappings one after the other gives for an artifact the source of the
latest of them, and what it knew before for an artifact that none of them has (`get?_insertAll`).
Its size counts each artifact once (`size_insertAll`).
-/

namespace CompileCommands.HeaderTable

/-- The header of an artifact by the mappings recorded since a table: the latest, else the table's
own. -/
def headerSince (t : HeaderTable) (ms : List HeaderMapping) (artifact : String) : Option String :=
  ((ms.filter (·.artifact = artifact)).getLast?.map HeaderMapping.source).or (t.get? artifact)

theorem get?_insert (t : HeaderTable) (m : HeaderMapping) (artifact : String) :
    (t.insert m).get? artifact =
      if m.artifact = artifact then some m.source else t.get? artifact := by
  unfold get? insert
  by_cases h : m.artifact = artifact
  · simp [h]
  · rw [if_neg h, List.find?_cons_of_neg (by simpa using h), List.find?_filter]
    -- the mappings that the new one displaces are of another artifact
    have hothers : ∀ n : HeaderMapping,
        decide (decide (n.artifact ≠ m.artifact) = true ∧ decide (n.artifact = artifact) = true) =
          decide (n.artifact = artifact) := by
      intro n
      by_cases hn : n.artifact = artifact
      · simp [hn, Ne.symm h]
      · simp [hn]
    rw [funext hothers]

theorem insertAll_concat (t : HeaderTable) (ms : List HeaderMapping) (m : HeaderMapping) :
    t.insertAll (ms ++ [m]) = (t.insertAll ms).insert m :=
  List.foldl_concat ..

theorem get?_insertAll (t : HeaderTable) (ms : List HeaderMapping) (artifact : String) :
    (t.insertAll ms).get? artifact = t.headerSince ms artifact := by
  induction ms using List.reverseRecOn with
  | nil => rfl
  | append_singleton ms m ih =>
      rw [insertAll_concat, get?_insert, ih, headerSince, headerSince, List.filter_append]
      by_cases h : m.artifact = artifact
      · have hlast : [m].filter (·.artifact = artifact) = [m] := by simp [h]
        rw [if_pos h, hlast, List.getLast?_concat]
        rfl
      · have hlast : [m].filter (·.artifact = artifact) = [] := by simp [h]
        rw [if_neg h, hlast, List.append_nil]

/-! ## The number of artifacts -/

def artifacts (ms : List HeaderMapping) : Finset String :=
  (ms.map HeaderMapping.artifact).toFinset

theorem mem_artifacts_iff {t : HeaderTable} {artifact : String} :
    artifact ∈ artifacts t.mappings ↔ (t.get? artifact).isSome = true := by
  simp [artifacts, get?]

theorem artifacts_insert (t : HeaderTable) (m : HeaderMapping) :
    artifacts (t.insert m).mappings = {m.artifact} ∪ artifacts t.mappings := by
  ext artifact
  simp only [artifacts, insert, List.mem_toFinset, Finset.mem_union, Finset.mem_singleton,
    List.mem_map, List.mem_cons, List.mem_filter]
  constructor
  · rintro ⟨n, rfl | ⟨hn, -⟩, rfl⟩
    · exact Or.inl rfl
    · exact Or.inr ⟨n, hn, rfl⟩
  · rintro (rfl | ⟨n, hn, rfl⟩)
    · exact ⟨m, Or.inl rfl, rfl⟩
    · by_cases h : n.artifact = m.artifact
      · exact ⟨m, Or.inl rfl, h.symm⟩
      · exact ⟨n, Or.inr ⟨hn, by simpa using h⟩, rfl⟩

theorem artifacts_insertAll (t : HeaderTable) (ms : List HeaderMapping) :
    artifacts (t.insertAll ms).mappings = artifacts (t.mappings ++ ms) := by
  induction ms using List.reverseRecOn with
  | nil => rw [List.append_nil]; rfl
  | append_singleton ms m ih =>
      rw [insertAll_concat, artifacts_insert, ih, ← List.append_assoc]
      ext artifact
      simp only [artifacts, List.map_append, List.map_cons, List.map_nil, List.mem_toFinset,
        Finset.mem_union, Finset.mem_singleton, List.mem_append, List.mem_singleton]
      exact or_comm

theorem size_eq_card (t : HeaderTable) : t.size = (artifacts t.mappings).card := by
  rw [artifacts, List.toFinset_card_of_nodup t.distinct, List.length_map]
  rfl

/-- A table grows by the artifacts that are new to it. -/
theorem size_insert (t : HeaderTable) (m : HeaderMapping) :
    (t.insert m).size = t.size + if t.get? m.artifact = none then 1 else 0 := by
  have hknown : m.artifact ∈ artifacts t.mappings ↔ t.get? m.artifact ≠ none :=
    mem_artifacts_iff.trans Option.isSome_iff_ne_none
  rw [size_eq_card, size_eq_card, artifacts_insert, ← Finset.insert_eq]
  by_cases hnew : t.get? m.artifact = none
  · have hmem : m.artifact ∉ artifacts t.mappings := fun hmem => hknown.mp hmem hnew
    rw [Finset.card_insert_of_notMem hmem, if_pos hnew]
  · rw [Finset.card_insert_of_mem (hknown.mpr hnew), if_neg hnew, Nat.add_zero]

theorem size_insertAll (t : HeaderTable) (ms : List HeaderMapping) :
    (t.insertAll ms).size = (artifacts (t.mappings ++ ms)).card := by
  rw [size_eq_card, artifacts_insertAll]

/-! ## The artifacts known -/

theorem artifacts_insertAll_subset {t u : HeaderTable}
    (h : artifacts t.mappings ⊆ artifacts u.mappings) (ms : List HeaderMapping) :
    artifacts (t.insertAll ms).mappings ⊆ artifacts (u.insertAll ms).mappings := by
  have happend : ∀ front : List HeaderMapping,
      artifacts (front ++ ms) = artifacts front ∪ artifacts ms := by
    intro front
    simp [artifacts, List.toFinset_append]
  rw [artifacts_insertAll, artifacts_insertAll, happend, happend]
  exact Finset.union_subset_union_left h

/-- A table that knows more artifacts resolves more include paths. -/
theorem resolve?_of_subset {t u : HeaderTable} (h : artifacts t.mappings ⊆ artifacts u.mappings)
    {path : String} (hpath : (t.resolve? path).isSome = true) :
    (u.resolve? path).isSome = true := by
  simp only [resolve?, List.findSome?_isSome_iff] at hpath ⊢
  obtain ⟨ending, hending, hknown⟩ := hpath
  exact ⟨ending, hending, mem_artifacts_iff.mp (h (mem_artifacts_iff.mpr hknown))⟩

end CompileCommands.HeaderTable
