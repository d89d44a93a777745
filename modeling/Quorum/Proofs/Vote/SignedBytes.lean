import Quorum.Vote

/-! The bytes that a vote signs. They tell where they end, so that those of one candidate are never
the beginning of those of another one, and a signature speaks for one candidate only.
-/

namespace Quorum

-----------------------------------------------------------------------------------------
-- Fields in front of other bytes
-----------------------------------------------------------------------------------------

namespace Bytes

variable {rest rest' : Bytes}

/-- A number that fits its width is told by its bytes, whatever follows them. -/
theorem bigEndian_append_inj {width number number' : Nat} (fits : number < 256 ^ width)
    (fits' : number' < 256 ^ width)
    (same : bigEndian width number ++ rest = bigEndian width number' ++ rest')
    : number = number' ∧ rest = rest' := by
  obtain ⟨front, behind⟩ := List.append_inj same (by simp)
  have value := congrArg ofBigEndian front
  rw [ofBigEndian_bigEndian, ofBigEndian_bigEndian, Nat.mod_eq_of_lt fits,
    Nat.mod_eq_of_lt fits'] at value
  exact ⟨value, behind⟩

/-- A word is told by its eight bytes, whatever follows them. -/
theorem word_append_inj {word word' : UInt64}
    (same : bigEndian 8 word.toNat ++ rest = bigEndian 8 word'.toNat ++ rest')
    : word = word' ∧ rest = rest' := by
  obtain ⟨value, behind⟩ := bigEndian_append_inj word.toNat_lt word'.toNat_lt same
  exact ⟨UInt64.toNat_inj.mp value, behind⟩

/-- The length of a field says where it ends, whatever the field is and whatever follows it. -/
theorem field_append_inj {field field' : Bytes} (sized : field.length < UInt64.size)
    (sized' : field'.length < UInt64.size)
    (same
      : bigEndian 8 field.length ++ (field ++ rest) = bigEndian 8 field'.length ++ (field' ++ rest'))
    : field = field' ∧ rest = rest' := by
  obtain ⟨length, behind⟩ := bigEndian_append_inj sized sized' same
  exact List.append_inj behind length

end Bytes

-----------------------------------------------------------------------------------------
-- Candidates
-----------------------------------------------------------------------------------------

namespace Candidate

/-- The lengths of both hashes fit 64 bits. -/
structure Sized (candidate : Candidate) : Prop where
  proposal : candidate.proposal.length < UInt64.size
  block : candidate.block.length < UInt64.size

variable {first second : Candidate}

/-- Candidates are read off their signed bytes field by field, whatever follows these. -/
theorem signedBytes_append_inj {rest rest' : Bytes} (sized : first.Sized) (sized' : second.Sized)
    (same : first.signedBytes ++ rest = second.signedBytes ++ rest')
    : first = second ∧ rest = rest' := by
  simp only [signedBytes, List.append_assoc] at same
  obtain ⟨height, same⟩ := Bytes.word_append_inj same
  obtain ⟨counter, same⟩ := Bytes.word_append_inj same
  obtain ⟨proposal, same⟩ := Bytes.field_append_inj sized.proposal sized'.proposal same
  obtain ⟨block, behind⟩ := Bytes.field_append_inj sized.block sized'.block same
  obtain ⟨⟨_, _⟩, _, _⟩ := first
  obtain ⟨⟨_, _⟩, _, _⟩ := second
  cases height
  cases counter
  cases proposal
  cases block
  exact ⟨rfl, behind⟩

/-- The signed bytes of a candidate begin those of no other one, and so are those of no other one:
bytes move neither between the hashes nor into their lengths.
-/
theorem signedBytes_unambiguous (sized : first.Sized) (sized' : second.Sized)
    : (first.signedBytes <+: second.signedBytes ↔ first = second)
      ∧ (first.signedBytes = second.signedBytes ↔ first = second) := by
  have begins (front : first.signedBytes <+: second.signedBytes) : first = second := by
    obtain ⟨rest, same⟩ := front
    rw [← List.append_nil second.signedBytes] at same
    exact (signedBytes_append_inj sized sized' same).1
  refine ⟨⟨begins, ?_⟩, ⟨fun same => begins (same ▸ List.prefix_rfl), congrArg signedBytes⟩⟩
  rintro rfl
  exact List.prefix_rfl

/-- The same bytes, divided between the hashes in two ways. -/
theorem signedBytes_unambiguous_of_shift
    : let first : Candidate := ⟨⟨1, 0⟩, [1, 2], [3]⟩
      let second : Candidate := ⟨⟨1, 0⟩, [1], [2, 3]⟩
      first.proposal ++ first.block = second.proposal ++ second.block
      ∧ ¬ first.signedBytes <+: second.signedBytes ∧ first.signedBytes ≠ second.signedBytes := by
  intro first second
  have sized : first.Sized := ⟨by decide, by decide⟩
  have sized' : second.Sized := ⟨by decide, by decide⟩
  obtain ⟨begins, equals⟩ := signedBytes_unambiguous sized sized'
  exact ⟨rfl, mt begins.mp (by decide), mt equals.mp (by decide)⟩

end Candidate

end Quorum
