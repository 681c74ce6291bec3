import DeepinServiceManager.SectionSearch

namespace DeepinServiceManager.SoFileBounds

open ByteWords Utils SectionSearch

variable (m : Machine) (content : FileContent)

def VersionInRange (shstr sh : Elf64_Shdr) : Prop :=
  Allocates m sh ∧ (ptrSize (ehdr m content) * 2 ≤ QByteArray.effectiveSize sh.sh_size →
    ptrSize (ehdr m content) + 4 ≤ (sectionBytes m content shstr sh).length)

/-- The section index is that of a section, every name is decided inside the string table up to the first
".qtversion", and that section holds the bytes its header promises. -/
def ReadsInRange : Prop :=
  ∃ shstr, (sections m content)[(ehdr m content).e_shstrndx]? = some shstr ∧ Allocates m shstr ∧
    ((∀ s ∈ sections m content, PassedOver (stringCells m content shstr) s) ∨
      ∃ sh, FirstNamed (stringCells m content shstr) (sections m content) sh ∧ VersionInRange m content shstr sh)

variable {m content}

theorem searchVersion_isSome : (searchVersion m content).isSome = true ↔ ReadsInRange m content := by
  rw [Option.isSome_iff_exists]
  constructor
  · rintro ⟨v, hv⟩
    obtain ⟨shstr, hshstr, halloc, hsearch⟩ := searchVersion_eq_some.1 hv
    refine ⟨shstr, hshstr, halloc, ?_⟩
    rcases hsearch with ⟨-, hpassed⟩ | ⟨sh, hfirst, hversion⟩
    · exact .inl hpassed
    · exact .inr ⟨sh, hfirst, versionAt_isSome.1 ⟨v, hversion⟩⟩
  · rintro ⟨shstr, hshstr, halloc, hpassed | ⟨sh, hfirst, hrange⟩⟩
    · exact ⟨.null, searchVersion_eq_some.2 ⟨shstr, hshstr, halloc, .inl ⟨rfl, hpassed⟩⟩⟩
    · obtain ⟨v, hv⟩ := versionAt_isSome.2 hrange
      exact ⟨v, searchVersion_eq_some.2 ⟨shstr, hshstr, halloc, .inr ⟨sh, hfirst, hv⟩⟩⟩

/-- A header alone, as a file has after its section headers are stripped. -/
def headerOnly : FileContent := ⟨ELFMAG ++ [2, 1, 1] ++ List.replicate 57 0, by decide⟩

end DeepinServiceManager.SoFileBounds
