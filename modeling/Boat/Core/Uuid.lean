import Mathlib.Algebra.Group.Nat.Defs
import Mathlib.Data.Int.Notation
import Mathlib.Data.List.Basic

/-!
# Identifiers and text

A `UUID` is a 128-bit number, printed as five groups of lower-case hexadecimal
digits (`UUID.str`). Text that starts with a printed UUID can be split in one way
only, as a printed UUID has a fixed length (`UUID.str_append_inj`).

Case folding belongs to the platform: the application folds with Python's
`str.lower`, the database with SQL's `lower` (`CaseFolding`). White space is what
`str.strip` removes.
-/

namespace Boat

/-- A UUID. -/
structure UUID where
  val : BitVec 128
  deriving DecidableEq, Repr

/-- The UUID of a number. -/
def UUID.ofNat (n : ℕ) : UUID := ⟨BitVec.ofNat 128 n⟩

/-- An instant, in microseconds of UTC. -/
abbrev Instant := ℤ

/-- `str.lower` of the application and `lower` of the database. -/
class CaseFolding where
  lower : String → String
  sqlLower : String → String

export CaseFolding (lower sqlLower)

/-- Case folding of ASCII. -/
@[reducible] def CaseFolding.ascii : CaseFolding := ⟨String.toLower, String.toLower⟩

/-- The white space of Python's `str.strip`. -/
def isSpace (c : Char) : Bool :=
  let n := c.toNat
  (9 ≤ n && n ≤ 13) || (28 ≤ n && n ≤ 32) || n == 0x85 || n == 0xa0 || n == 0x1680 ||
    (0x2000 ≤ n && n ≤ 0x200a) || n == 0x2028 || n == 0x2029 || n == 0x202f || n == 0x205f ||
    n == 0x3000

/-- `str.strip()`. -/
def strip (s : String) : String :=
  String.ofList ((s.toList.dropWhile isSpace).reverse.dropWhile isSpace).reverse

/-! ## Printing -/

/-- The lower-case hexadecimal digit of `n < 16`. -/
def hexDigit (n : ℕ) : Char := "0123456789abcdef".toList.getD n '0'

/-- The last `k` hexadecimal digits of `n`. -/
def hexDigits : ℕ → ℕ → List Char
  | 0, _ => []
  | k + 1, n => hexDigits k (n / 16) ++ [hexDigit (n % 16)]

theorem length_hexDigits (k n : ℕ) : (hexDigits k n).length = k := by
  induction k generalizing n with
  | zero => rfl
  | succ k ih => rw [hexDigits, List.length_append, ih]; rfl

theorem hexDigit_inj : ∀ m < 16, ∀ n < 16, hexDigit m = hexDigit n → m = n := by decide

theorem hexDigits_inj {k m n : ℕ} (hm : m < 16 ^ k) (hn : n < 16 ^ k)
    (h : hexDigits k m = hexDigits k n) : m = n := by
  induction k generalizing m n with
  | zero => omega
  | succ k ih =>
    obtain ⟨hd, hl⟩ := List.append_inj' h rfl
    have hq : m / 16 = n / 16 := ih (by omega) (by omega) hd
    have hr : m % 16 = n % 16 :=
      hexDigit_inj _ (Nat.mod_lt _ (by decide)) _ (Nat.mod_lt _ (by decide)) (List.singleton_inj.1 hl)
    omega

/-- The digits of a UUID, in groups of 8, 4, 4, 4 and 12. -/
def UUID.chars (u : UUID) : List Char :=
  let n := u.val.toNat
  hexDigits 8 (n / 16 ^ 24) ++ '-' :: (hexDigits 4 (n / 16 ^ 20 % 16 ^ 4) ++ '-' ::
    (hexDigits 4 (n / 16 ^ 16 % 16 ^ 4) ++ '-' :: (hexDigits 4 (n / 16 ^ 12 % 16 ^ 4) ++ '-' ::
      hexDigits 12 (n % 16 ^ 12))))

/-- `str(uuid)`. -/
def UUID.str (u : UUID) : String := String.ofList u.chars

theorem UUID.length_chars (u : UUID) : u.chars.length = 36 := by
  simp [UUID.chars, length_hexDigits]

theorem UUID.chars_inj {u v : UUID} (h : u.chars = v.chars) : u = v := by
  have hu := u.val.isLt
  have hv := v.val.isLt
  obtain ⟨h₁, h⟩ := List.append_inj h (by simp [length_hexDigits])
  obtain ⟨h₂, h⟩ := List.append_inj (List.cons_inj_right _ |>.1 h) (by simp [length_hexDigits])
  obtain ⟨h₃, h⟩ := List.append_inj (List.cons_inj_right _ |>.1 h) (by simp [length_hexDigits])
  obtain ⟨h₄, h⟩ := List.append_inj (List.cons_inj_right _ |>.1 h) (by simp [length_hexDigits])
  have h₅ := List.cons_inj_right _ |>.1 h
  have e₁ := hexDigits_inj (by omega) (by omega) h₁
  have e₂ := hexDigits_inj (by omega) (by omega) h₂
  have e₃ := hexDigits_inj (by omega) (by omega) h₃
  have e₄ := hexDigits_inj (by omega) (by omega) h₄
  have e₅ := hexDigits_inj (by omega) (by omega) h₅
  have : u.val = v.val := BitVec.eq_of_toNat_eq (by omega)
  cases u; cases v; exact congrArg _ this

@[simp] theorem UUID.toList_str (u : UUID) : u.str.toList = u.chars := String.toList_ofList

theorem UUID.str_inj {u v : UUID} (h : u.str = v.str) : u = v :=
  UUID.chars_inj (by rw [← UUID.toList_str, h, UUID.toList_str])

/-- The text after a printed UUID can be split off. -/
theorem UUID.str_append_inj {u v : UUID} {s t : String} (h : u.str ++ s = v.str ++ t) :
    u = v ∧ s = t := by
  have h := congrArg String.toList h
  rw [String.toList_append, String.toList_append, toList_str, toList_str] at h
  obtain ⟨huv, hst⟩ := List.append_inj h (by rw [length_chars, length_chars])
  exact ⟨chars_inj huv, String.toList_inj.1 hst⟩

end Boat
