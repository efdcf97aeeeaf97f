import Wikitext.Proofs.Sort.Flags
import Wikitext.Sort.Edit

/-! Runs of edits to sort flags. Each flag has the value that the last edit addressing it gave, and
the bits of the flags are those of a byte on which the edits work by masks. -/

namespace Wikitext

namespace FlagsText

/-- A byte counts as it is, unless a bit above the low three is set. -/
def byte? : FlagsText → Option UInt8
  | bits b => if b &&& ~~~7 = 0 then some b else none
  | keywords t => (SortFlags.ofText t).toOption.map SortFlags.bits

theorem byte?_eq (given : FlagsText) : given.byte? = given.read.toOption.map SortFlags.bits := by
  cases given with
  | bits b =>
    by_cases hle : b ≤ 7
    · obtain ⟨f, hf, rfl⟩ := SortFlags.ofBits_of_le hle
      rw [byte?, if_pos ((SortFlags.le_iff_masked _).mp hle), read, hf]
      rfl
    · rw [byte?, if_neg (mt (SortFlags.le_iff_masked b).mpr hle), read,
        SortFlags.ofBits_of_not_le hle]
      rfl
  | keywords t => rfl

end FlagsText

namespace FlagsEdit

/-- What an edit gives to a flag that it addresses. Adding addresses only the flags that it sets, a
replacement addresses all, and an edit that fails addresses none. -/
def gives? (flag : Flag) : FlagsEdit → Option Bool
  | setNumeric on => if flag = .numeric then some on else none
  | setCaseSensitive on => if flag = .caseSensitive then some on else none
  | setDescending on => if flag = .descending then some on else none
  | add given =>
    match given.read with
    | .ok g => if g.contains flag.alone then some true else none
    | .error _ => none
  | replace given =>
    match given.read with
    | .ok g => some (g.contains flag.alone)
    | .error _ => none
  | replaceLenient t => some ((SortFlags.ofTextLenient t).contains flag.alone)

def onBits (b : UInt8) : FlagsEdit → UInt8
  | setNumeric on => Flag.numeric.assign on b
  | setCaseSensitive on => Flag.caseSensitive.assign on b
  | setDescending on => Flag.descending.assign on b
  | add given => given.byte?.elim b (b ||| ·)
  | replace given => given.byte?.getD b
  | replaceLenient t => (SortFlags.ofTextLenient t).bits

section Step

variable {given : FlagsText} {g : SortFlags} {err : FlagsError}

theorem step_add_of_ok (f : SortFlags) (h : given.read = .ok g) :
    (add given).step f = f.union g := by
  simp [step, apply, h, Functor.map, Except.map]

theorem step_add_of_error (f : SortFlags) (h : given.read = .error err) :
    (add given).step f = f := by
  simp [step, apply, h, Functor.map, Except.map]

theorem step_replace_of_ok (f : SortFlags) (h : given.read = .ok g) :
    (replace given).step f = g := by
  simp [step, apply, h]

theorem step_replace_of_error (f : SortFlags) (h : given.read = .error err) :
    (replace given).step f = f := by
  simp [step, apply, h]

end Step

theorem contains_step (f : SortFlags) (e : FlagsEdit) (flag : Flag) :
    (e.step f).contains flag.alone = (e.gives? flag).getD (f.contains flag.alone) := by
  cases e with
  | setNumeric on => exact Flag.numeric.contains_put flag on f
  | setCaseSensitive on => exact Flag.caseSensitive.contains_put flag on f
  | setDescending on => exact Flag.descending.contains_put flag on f
  | add given =>
    cases h : given.read with
    | error err => simp [step_add_of_error f h, gives?, h]
    | ok g =>
      rw [step_add_of_ok f h, SortFlags.contains_union]
      cases hg : g.contains flag.alone <;> simp [gives?, h, hg]
  | replace given =>
    cases h : given.read with
    | error err => simp [step_replace_of_error f h, gives?, h]
    | ok g => simp [step_replace_of_ok f h, gives?, h]
  | replaceLenient t => rfl

theorem bits_step (f : SortFlags) (e : FlagsEdit) : (e.step f).bits = onBits f.bits e := by
  cases e with
  | setNumeric on => exact Flag.numeric.bits_put on f
  | setCaseSensitive on => exact Flag.caseSensitive.bits_put on f
  | setDescending on => exact Flag.descending.bits_put on f
  | add given =>
    cases h : given.read with
    | error err => simp [step_add_of_error f h, onBits, FlagsText.byte?_eq, h, Except.toOption]
    | ok g => simp [step_add_of_ok f h, onBits, FlagsText.byte?_eq, h, Except.toOption,
        SortFlags.bits_union]
  | replace given =>
    cases h : given.read with
    | error err => simp [step_replace_of_error f h, onBits, FlagsText.byte?_eq, h, Except.toOption]
    | ok g => simp [step_replace_of_ok f h, onBits, FlagsText.byte?_eq, h, Except.toOption]
  | replaceLenient t => rfl

end FlagsEdit

namespace SortFlags

theorem bits_ofEdits (es : List FlagsEdit) : (ofEdits es).bits = es.foldl FlagsEdit.onBits 0 :=
  (List.foldl_hom bits fun f e => (FlagsEdit.bits_step f e).symm).symm

/-- This holds after any run of edits, hence after each step of one. -/
theorem ofEdits_by_last_edit (es : List FlagsEdit) :
    (ofEdits es).bits ≤ 7 ∧ ofBits (ofEdits es).bits = .ok (ofEdits es) ∧
    (∀ b f, ofBits b = .ok f ↔ b ≤ 7 ∧ f.bits = b) ∧
    (∀ flag : Flag, (ofEdits es).contains flag.alone =
      ((es.filterMap (FlagsEdit.gives? flag)).getLast?).getD false) ∧
    (∀ f e (flag : Flag), (FlagsEdit.step f e).contains flag.alone =
      (e.gives? flag).getD (f.contains flag.alone)) ∧
    (ofEdits es).bits = es.foldl FlagsEdit.onBits 0 ∧
    (∀ flag : Flag, (ofEdits es).contains flag.alone =
      ((ofEdits es).bits &&& flag.alone.bits == flag.alone.bits)) := by
  refine ⟨bits_le _, ofBits_bits _, fun b f => ofBits_eq_ok_iff, fun flag => ?_,
    FlagsEdit.contains_step, bits_ofEdits es, contains_eq_bits _⟩
  rw [ofEdits, foldl_eq_last_given (fun f => f.contains flag.alone)
    (fun f e => FlagsEdit.contains_step f e flag) es, contains_empty]

example : ofEdits [.setNumeric true, .add (.bits 9), .replaceLenient ['c', 's'], .add (.bits 1),
    .setCaseSensitive false] = ⟨false, false, true⟩ := by decide +kernel

end SortFlags

end Wikitext
