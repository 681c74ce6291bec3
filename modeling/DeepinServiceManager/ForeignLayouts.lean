import DeepinServiceManager.SoFileVersions

namespace DeepinServiceManager.ForeignLayouts

open ByteWords ElfFiles Utils SectionSearch SoFileVersions

/-- What the file says, whichever its class and byte order; the index 0 stands for no table of names. -/
def statedVersion (cls : ElfClass) (order : ByteOrder) (bytes : List UInt8) : QVersionNumber :=
  if stringIndex cls order bytes = 0 then .null else encodedVersion cls order bytes

/-- The fields at the offsets of a 64-bit file, in the order of the machine, lead to no section or to one too short. -/
def NothingFound (m : Machine) (content : FileContent) (cls : ElfClass) : Prop :=
  content.bytes.length < 64 ∨ (table m content).length ≠ tableSize m content ∨
    ∃ shstr, (sections m content)[(ehdr m content).e_shstrndx]? = some shstr ∧ Allocates m shstr ∧
      ((∀ sh ∈ sections m content, PassedOver (stringCells m content shstr) sh) ∨
        ∃ sh, FirstNamed (stringCells m content shstr) (sections m content) sh ∧ Allocates m sh ∧
          QByteArray.effectiveSize sh.sh_size < (layout cls).pointerSize * 2)

variable {m : Machine} {content : FileContent} {cls : ElfClass} {order : ByteOrder}

theorem nothingFound_iff (hfile : WellFormed cls order content.bytes) :
    qtVersionFromSo m (some content) = some .null ↔ NothingFound m content cls := by
  unfold NothingFound
  by_cases htable : HasTable m content
  · rw [qtVersionFromSo_table htable, searchVersion_eq_some, or_iff_right (not_lt.2 htable.header),
      or_iff_right (not_not.2 htable.table)]
    refine exists_congr fun shstr => and_congr_right fun _ => and_congr_right fun _ => ?_
    simp only [versionAt_eq_null, ptrSize_eq hfile, true_and]
  · rw [qtVersionFromSo_no_table htable]
    refine iff_of_true rfl ?_
    by_contra hfound
    rw [not_or, not_or, not_lt, not_not] at hfound
    exact htable ⟨hfound.1, hfile.magic, hfound.2.1⟩

/-- The big-endian sample with another name for its version section. -/
def unversioned : List UInt8 := (sample .elf64 .big 21).set 81 0x5f

theorem unversioned_wellFormed : WellFormed .elf64 .big unversioned := by decide +kernel

example : statedVersion .elf64 .big (sample .elf64 .big 21) = .segments 6 4 1 ∧
    qtVersionFromSo ⟨.little, fun _ => true, true⟩ (some ⟨sample .elf64 .big 21, by decide +kernel⟩) = some .null := by
  decide +kernel

end DeepinServiceManager.ForeignLayouts
