import Mathlib.Algebra.Group.Nat.Defs
import Mathlib.Data.Int.Notation
import Mathlib.Data.List.Basic

/-!
# Digits

Numbers are printed with a fixed number of digits (`padded`) or with as many as they have
(`Nat.toDigits`), and read back (`number`, `readNumber`).

* `number_padded`, `number_toDigits`: what is printed is read.
* `readNumber_padded`: a number of a fixed length is read off the front of a text.
-/

namespace Text

/-- The value of a digit, of either case. -/
def digitValue (c : Char) : Option ℕ :=
  if '0' ≤ c ∧ c ≤ '9' then some (c.toNat - '0'.toNat)
  else if 'a' ≤ c ∧ c ≤ 'f' then some (c.toNat - 'a'.toNat + 10)
  else if 'A' ≤ c ∧ c ≤ 'F' then some (c.toNat - 'A'.toNat + 10)
  else none

/-- The number that digits in base `b` add to those before them. -/
def numberFrom (b : ℕ) : ℕ → List Char → Option ℕ
  | n, [] => some n
  | n, c :: cs =>
    match digitValue c with
    | some d => if d < b then numberFrom b (b * n + d) cs else none
    | none => none

/-- The number with the digits `cs` in base `b`. -/
def number (b : ℕ) (cs : List Char) : Option ℕ := numberFrom b 0 cs

/-- The last `k` digits of `n` in base `b`. -/
def padded (b : ℕ) : ℕ → ℕ → List Char
  | 0, _ => []
  | k + 1, n => padded b k (n / b) ++ [(n % b).digitChar]

/-- The number of the first `k` characters, and the rest. -/
def readNumber (b k : ℕ) (s : List Char) : Option (ℕ × List Char) :=
  if s.length < k then none else (number b (s.take k)).map (·, s.drop k)

theorem digitValue_digitChar : ∀ d < 16, digitValue d.digitChar = some d := by decide

theorem numberFrom_append (b n : ℕ) (cs : List Char) {ds : List Char} :
    numberFrom b n (cs ++ ds) = (numberFrom b n cs).bind (numberFrom b · ds) := by
  induction cs generalizing n with
  | nil => rfl
  | cons c cs ih =>
    simp only [List.cons_append, numberFrom]
    split
    · split
      · exact ih _
      · rfl
    · rfl

variable {b : ℕ}

theorem numberFrom_digit (hb : b ≤ 16) (n : ℕ) {d : ℕ} (hd : d < b) :
    numberFrom b n [d.digitChar] = some (b * n + d) := by
  simp only [numberFrom, digitValue_digitChar d (by omega), hd, if_true]

theorem length_padded (b k n : ℕ) : (padded b k n).length = k := by
  induction k generalizing n with
  | zero => rfl
  | succ k ih => rw [padded, List.length_append, ih, List.length_singleton]

/-- The digits of a number are those of what is left of it, and the last ones. -/
theorem padded_add (b j k n : ℕ) : padded b (j + k) n = padded b j (n / b ^ k) ++ padded b k n := by
  induction k generalizing n with
  | zero => rw [Nat.pow_zero, Nat.div_one, padded, List.append_nil, Nat.add_zero]
  | succ k ih =>
    rw [← Nat.add_assoc, padded, ih, padded, List.append_assoc, Nat.div_div_eq_div_mul,
      Nat.pow_succ, Nat.mul_comm]

theorem padded_mod (b k n : ℕ) : padded b k (n % b ^ k) = padded b k n := by
  induction k generalizing n with
  | zero => rfl
  | succ k ih =>
    have hmod : n % b ^ (k + 1) % b = n % b :=
      Nat.mod_mod_of_dvd n ⟨b ^ k, by rw [Nat.pow_succ, Nat.mul_comm]⟩
    have hdiv : n % b ^ (k + 1) / b = n / b % b ^ k := by
      rw [Nat.pow_succ, Nat.mul_comm, Nat.mod_mul_right_div_self]
    rw [padded, padded, hmod, hdiv, ih]

theorem number_padded (hpos : 0 < b) (hb : b ≤ 16) {k n : ℕ}
    (hn : n < b ^ k) : number b (padded b k n) = some n := by
  induction k generalizing n with
  | zero =>
    obtain rfl : n = 0 := by simpa using hn
    rfl
  | succ k ih =>
    have hdiv : n / b < b ^ k := by
      rw [Nat.div_lt_iff_lt_mul hpos, ← Nat.pow_succ]
      exact hn
    rw [padded, number, numberFrom_append, ← number, ih hdiv, Option.bind_some,
      numberFrom_digit hb _ (Nat.mod_lt _ hpos), Nat.div_add_mod]

/-- A number that is read off the front of a text. -/
theorem readNumber_append {k : ℕ} {cs : List Char} {n : ℕ} (hlen : cs.length = k)
    (hn : number b cs = some n) (rest : List Char) :
    readNumber b k (cs ++ rest) = some (n, rest) := by
  subst hlen
  rw [readNumber, if_neg (by simp), List.take_left, List.drop_left, hn]
  rfl

theorem readNumber_padded (hpos : 0 < b) (hb : b ≤ 16) {k n : ℕ} (hn : n < b ^ k) (rest : List Char) :
    readNumber b k (padded b k n ++ rest) = some (n, rest) :=
  readNumber_append (length_padded b k n) (number_padded hpos hb hn) rest

theorem number_toDigits (hb : 1 < b) (hb' : b ≤ 16)
    (n : ℕ) : number b (Nat.toDigits b n) = some n := by
  induction n using Nat.strongRecOn with
  | ind n ih =>
    by_cases hn : n < b
    · rw [Nat.toDigits_of_lt_base hn, number, numberFrom_digit hb' 0 hn]
      simp
    · have hdiv : 0 < n / b := Nat.div_pos (Nat.le_of_not_lt hn) (by omega)
      have hsplit := Nat.toDigits_append_toDigits hb hdiv (Nat.mod_lt n (by omega))
      rw [Nat.div_add_mod, Nat.toDigits_of_lt_base (Nat.mod_lt n (by omega))] at hsplit
      rw [← hsplit, number, numberFrom_append, ← number, ih _ (Nat.div_lt_self (by omega) hb),
        Option.bind_some, numberFrom_digit hb' _ (Nat.mod_lt n (by omega)), Nat.div_add_mod]

end Text
