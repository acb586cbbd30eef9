import Mathlib.Data.String.Basic

/-!
# `llvm::StringRef::getAsInteger` into a `uint32_t`

`parseClientMapping` reads the `version` of the client with
`llvm::StringRef(value).getAsInteger(10, version)`, `version` a `uint32_t`.  That function is
LLVM's, not this repository's: `getAsInteger` for an unsigned `T` runs
`llvm::getAsUnsignedInteger` (`lib/Support/StringRef.cpp`) into an `unsigned long long` and
fails when `static_cast<T>(ULLVal) != ULLVal`.  The loop rejects the empty string and every
character that is not a digit of the radix, and detects overflow of the 64-bit accumulator
as `Result/Radix < PrevResult`.

For radix 10 that check is exact (`overflow_check_iff`), so the value is read without loss
and `getAsInteger_ten` says what the parser gets: the number of a non-empty string of
decimal digits (`String.toNat?`) when it is below `2^32`, and a failure otherwise.
-/

namespace Llbuild
namespace StringRef

/-- The digit a character stands for in `getAsUnsignedInteger`: `0`-`9`, then `a`-`z` and
`A`-`Z` from 10 up. -/
def charVal (c : Char) : Option Nat :=
  if '0' ≤ c ∧ c ≤ '9' then some (c.toNat - '0'.toNat)
  else if 'a' ≤ c ∧ c ≤ 'z' then some (c.toNat - 'a'.toNat + 10)
  else if 'A' ≤ c ∧ c ≤ 'Z' then some (c.toNat - 'A'.toNat + 10)
  else none

/-- The loop of `getAsUnsignedInteger`: `Result = Result*Radix+CharVal` in an
`unsigned long long`, failing on a character that is not a digit of the radix and on an
overflow, detected as `Result/Radix < PrevResult`. -/
def getAsUnsignedIntegerLoop (radix : Nat) : List Char → Nat → Option Nat
  | [], result => some result
  | c :: str, prevResult =>
    match charVal c with
    | none => none
    | some charVal =>
      if radix ≤ charVal then none
      else
        let result := (prevResult * radix + charVal) % 2 ^ 64
        if result / radix < prevResult then none
        else getAsUnsignedIntegerLoop radix str result

/-- `llvm::getAsUnsignedInteger` for an explicit radix (the only call passes 10, so the
autosensing of radix 0 is left out): the empty string is invalid. -/
def getAsUnsignedInteger (str : String) (radix : Nat) : Option Nat :=
  if str.isEmpty then none else getAsUnsignedIntegerLoop radix str.toList 0

/-- `StringRef::getAsInteger(Radix, Result)` for `uint32_t`: the `unsigned long long` read by
`getAsUnsignedInteger`, rejected when the cast to `uint32_t` changes it. -/
def getAsInteger (str : String) (radix : Nat) : Option UInt32 :=
  match getAsUnsignedInteger str radix with
  | none => none
  | some value => if (UInt32.ofNat value).toNat = value then some (UInt32.ofNat value) else none

/-- One decimal digit appended to a number, as `String.toNat?` folds it. -/
def decimalStep (n : Nat) (c : Char) : Nat := n * 10 + (c.toNat - '0'.toNat)

theorem le_foldl_decimalStep (cs : List Char) (n : Nat) : n ≤ cs.foldl decimalStep n := by
  induction cs generalizing n with
  | nil => exact le_rfl
  | cons c cs ih => exact le_trans (by simp only [decimalStep]; omega) (ih _)

theorem isDigit_iff (c : Char) : c.isDigit = true ↔ 48 ≤ c.toNat ∧ c.toNat ≤ 57 := by
  simp [Char.isDigit, UInt32.le_def, BitVec.le_def, Char.toNat, UInt32.toNat]

/-- Below radix 10 the only digits are `0`-`9`, read as `c.toNat - '0'.toNat`. -/
theorem charVal_lt_ten {c : Char} {v : Nat} :
    (charVal c = some v ∧ v < 10) ↔ (c.isDigit = true ∧ v = c.toNat - '0'.toNat) := by
  have h0 : ('0' : Char).toNat = 48 := rfl
  simp only [isDigit_iff, charVal, Char.le_def, UInt32.le_def, BitVec.le_def] at *
  change (_ ↔ _ ∧ v = c.toNat - 48)
  split_ifs <;> simp_all [Char.toNat, UInt32.toNat] <;> omega

/-- **The overflow check of `getAsUnsignedInteger` is exact in radix 10.**  With
`PrevResult` in range and a digit below 10, `Result/Radix < PrevResult` holds exactly when
`PrevResult * 10 + CharVal` does not fit in 64 bits. -/
theorem overflow_check_iff (r d : Nat) (hd : d < 10) :
    (r * 10 + d) % 2 ^ 64 / 10 < r ↔ 2 ^ 64 ≤ r * 10 + d := by
  omega

/-- One step of the loop in radix 10: a decimal digit is appended unless the result leaves
64 bits; any other character fails. -/
theorem getAsUnsignedIntegerLoop_ten_cons (c : Char) (cs : List Char) (r : Nat) :
    getAsUnsignedIntegerLoop 10 (c :: cs) r =
      if c.isDigit then
        if 2 ^ 64 ≤ decimalStep r c then none
        else getAsUnsignedIntegerLoop 10 cs (decimalStep r c)
      else none := by
  rw [getAsUnsignedIntegerLoop]
  cases hv : charVal c with
  | none =>
    cases hd : c.isDigit
    · rfl
    · have := (charVal_lt_ten.2 ⟨hd, rfl⟩).1
      rw [hv] at this
      cases this
  | some v =>
    dsimp only
    by_cases h10 : v < 10
    · obtain ⟨hd, rfl⟩ := charVal_lt_ten.1 ⟨hv, h10⟩
      have hcheck := overflow_check_iff r _ h10
      rw [if_neg (show ¬10 ≤ c.toNat - '0'.toNat by omega), if_pos hd]
      by_cases ho : 2 ^ 64 ≤ decimalStep r c
      · rw [if_pos (hcheck.2 ho), if_pos ho]
      · rw [if_neg (mt hcheck.1 ho), if_neg ho]
        simp only [decimalStep] at ho ⊢
        rw [Nat.mod_eq_of_lt (by omega)]
    · rw [if_pos (show 10 ≤ v by omega)]
      cases hd : c.isDigit
      · rfl
      · have := charVal_lt_ten.2 ⟨hd, rfl⟩
        rw [hv, Option.some.injEq] at this
        omega

/-- **The loop in radix 10.**  From an accumulator in range, the loop reads a list of
decimal digits to its number when that number has fewer than 64 bits, and fails
otherwise. -/
theorem getAsUnsignedIntegerLoop_ten (cs : List Char) (r : Nat) (hr : r < 2 ^ 64) :
    getAsUnsignedIntegerLoop 10 cs r =
      if cs.all Char.isDigit ∧ cs.foldl decimalStep r < 2 ^ 64 then
        some (cs.foldl decimalStep r)
      else none := by
  induction cs generalizing r with
  | nil => rw [if_pos ⟨rfl, hr⟩]; rfl
  | cons c cs ih =>
    rw [getAsUnsignedIntegerLoop_ten_cons, List.all_cons, List.foldl_cons]
    by_cases hd : c.isDigit
    · rw [if_pos hd, hd, Bool.true_and]
      by_cases ho : 2 ^ 64 ≤ decimalStep r c
      · have := le_foldl_decimalStep cs (decimalStep r c)
        rw [if_pos ho, if_neg (fun h => absurd h.2 (by omega))]
      · rw [if_neg ho, ih _ (by omega)]
    · rw [if_neg hd, if_neg (fun h => by simp [hd] at h)]

theorem toNat_ofNat_uint32 (n : Nat) : (UInt32.ofNat n).toNat = n % 2 ^ 32 := by
  simp [UInt32.ofNat, UInt32.toNat, BitVec.toNat_ofNat]

/-- **What `getAsInteger(10, version)` reads.**  It succeeds exactly on a non-empty string of
decimal digits whose number is below `2^32`, and then gives that number: a numeral of
`2^32` or more is rejected, never truncated. -/
theorem getAsInteger_ten (str : String) :
    getAsInteger str 10 =
      str.toNat?.bind fun n => if n < 2 ^ 32 then some (UInt32.ofNat n) else none := by
  have hfold : str.foldl (fun n c => n * 10 + (c.toNat - '0'.toNat)) 0 =
      str.data.foldl decimalStep 0 := String.foldl_eq ..
  unfold getAsInteger getAsUnsignedInteger String.toNat? String.isNat
  rw [String.all_eq, hfold, show str.toList = str.data from rfl]
  by_cases he : str.isEmpty
  · simp [he]
  rw [if_neg he, getAsUnsignedIntegerLoop_ten _ _ (Nat.two_pow_pos 64)]
  simp only [he, Bool.not_false, Bool.true_and]
  by_cases hall : str.data.all Char.isDigit
  · rw [if_pos hall, Option.some_bind]
    by_cases h32 : str.data.foldl decimalStep 0 < 2 ^ 32
    · rw [if_pos ⟨hall, by omega⟩, if_pos h32]
      dsimp only
      rw [toNat_ofNat_uint32, Nat.mod_eq_of_lt h32, if_pos rfl]
    · rw [if_neg h32]
      by_cases h64 : str.data.foldl decimalStep 0 < 2 ^ 64
      · rw [if_pos ⟨hall, h64⟩]
        dsimp only
        rw [toNat_ofNat_uint32, if_neg (by omega)]
      · rw [if_neg (fun h => h64 h.2)]
  · rw [if_neg (fun h => hall h.1), if_neg hall]
    rfl

end StringRef
end Llbuild
