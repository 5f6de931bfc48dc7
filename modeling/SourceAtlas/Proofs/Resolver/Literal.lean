import SourceAtlas.Proofs.Resolver.Choice
import SourceAtlas.Proofs.Text.Lowercase

/-!
# Names that stand in an identity

The resolver looks for a name in an identity after both are put in lower case, each by itself. So a
name that stands in an identity as it is written can still be missed: it is found in every such
identity exactly if the name has no exposed capital sigma.
-/

namespace SourceAtlas.Resolver

variable {name package x : String}

theorem resolve_singleton_of_missed {tieBreak : TieBreak} (other : qualify package name ≠ x)
    (missed : ¬ Text.lower name <:+: Text.lower x) :
  (ofList [x] tieBreak).resolve name package = .unresolved name
  := by
  have resolves := resolves_resolve tieBreak [x] name package
  apply resolves.unique
  apply Resolves.unresolved
  · rw [List.mem_singleton]
    apply other
  · apply Or.inr
    rintro y ⟨listed, held⟩
    obtain rfl := List.mem_singleton.mp listed
    exact missed held

/-- The full name of a type has a dot besides those of the name. -/
theorem qualify_ne (dots : x.toList.count '.' = name.toList.count '.') :
  qualify package name ≠ x
  := by
  rintro rfl
  have dot : ".".toList.count '.' = 1 := by decide
  rw [qualify, String.toList_append, String.toList_append, List.count_append, List.count_append,
    dot] at dots
  omega

/-- A name without exposed capital sigmas, in particular one without any capital sigma, is resolved
whenever it stands in a known identity. For a name with one there is an identity in which the name
stands, and yet the name is left unresolved by a resolver that knows the identity. -/
theorem literal_names_resolve (name : String) :
  (¬ Text.Exposed name.toList →
      ∀ tieBreak identities package, name ≠ "" → (∃ x ∈ identities, name.toList <:+: x.toList) →
        ((ofList identities tieBreak).resolve name package).isResolved = true)
    ∧ (Text.capitalSigma ∉ name.toList → ¬ Text.Exposed name.toList)
    ∧ (Text.Exposed name.toList →
      ∃ x : String, name.toList <:+: x.toList
        ∧ ∀ tieBreak package, (ofList [x] tieBreak).resolve name package = .unresolved name)
  := by
  and_intros
  · rintro settled tieBreak identities package proper ⟨x, listed, part⟩
    have candidate : Candidate identities name x := ⟨listed, Text.lowerFrom_infix settled part⟩
    apply isResolved_of_mem_holding (mem_holding_ofList.mpr candidate) proper
  · apply Text.not_exposed_of_not_mem
  · intro exposed
    obtain ⟨text, part, dots, missed⟩ := Text.exists_not_infix exposed
    use String.ofList text
    rw [String.toList_ofList]
    use part
    intro tieBreak package
    apply resolve_singleton_of_missed
    · apply qualify_ne
      rw [String.toList_ofList, dots]
    · rw [Text.lower, Text.lower, String.toList_ofList]
      apply missed

/-- The name of a type in another package: the dot before its capital sigma is looked past, so that
the letter before the dot gives it the final form in the identity only. -/
theorem resolve_misses_sigma :
  "Σ".toList <:+: (qualify "a" "Σ").toList
    ∧ (ofList [qualify "a" "Σ"]).resolve "Σ" "q" = .unresolved "Σ"
  := by
  have dot : Text.isCaseIgnorable '.' = true := by
    rw [Text.isCaseIgnorable, Text.CodePoints.contains_eq_any_toList]
    decide +kernel
  have final : Text.lowerSigma ['.', 'a'] [] = Text.finalSigma := by
    rw [Text.lowerSigma_eq_final_iff, Text.startsCased_cons_of_ignorable dot]
    exact ⟨Text.startsCased_letter, rfl⟩
  have inside : Text.lower (qualify "a" "Σ") = ['a', '.', Text.finalSigma] := by
    rw [← final]
    rfl
  constructor
  · decide
  · apply resolve_singleton_of_missed
    · decide
    · rw [inside]
      decide

end SourceAtlas.Resolver
