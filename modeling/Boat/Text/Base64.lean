import Mathlib.Data.List.Basic
import Mathlib.Data.List.TakeWhile
import Mathlib.Data.UInt

/-!
# Base64

Bytes as the text of Python's `base64.urlsafe_b64encode`, and how `base64.urlsafe_b64decode` reads it:
characters outside of the alphabet are ignored, and so is everything after the padding.

* `decodeFrom_encode`: what has been encoded is read.
* `repad_unpad_encode`: the padding may be left out, and put back (`decode_repad`).
-/

namespace Text.Base64

/-- A digit of base 64. -/
def digit (n : ℕ) : Char :=
  if n < 26 then .ofNat (65 + n)
  else if n < 52 then .ofNat (71 + n)
  else if n < 62 then .ofNat (n - 4)
  else if n = 62 then '-'
  else '_'

/-- The value of a digit, of either alphabet. -/
def value (c : Char) : Option ℕ :=
  if 'A' ≤ c ∧ c ≤ 'Z' then some (c.toNat - 65)
  else if 'a' ≤ c ∧ c ≤ 'z' then some (c.toNat - 71)
  else if '0' ≤ c ∧ c ≤ '9' then some (c.toNat + 4)
  else if c = '-' ∨ c = '+' then some 62
  else if c = '_' ∨ c = '/' then some 63
  else none

/-- `urlsafe_b64encode`. -/
def encode : List UInt8 → List Char
  | [] => []
  | [a] => [digit (a.toNat / 4), digit (a.toNat % 4 * 16), '=', '=']
  | [a, b] => [digit (a.toNat / 4), digit (a.toNat % 4 * 16 + b.toNat / 16),
    digit (b.toNat % 16 * 4), '=']
  | a :: b :: c :: bytes =>
    digit (a.toNat / 4) :: digit (a.toNat % 4 * 16 + b.toNat / 16) ::
      digit (b.toNat % 16 * 4 + c.toNat / 64) ::
      digit (c.toNat % 64) :: encode bytes

/-- The bytes of the rest of a text, of which `quad` digits of a group of four have been read, and
    `pads` characters of padding after them; `left` are the bits that are left of the last digit. -/
def decodeFrom : ℕ → ℕ → ℕ → List Char → Option (List UInt8)
  | quad, _, _, [] => if quad = 0 then some [] else none
  | quad, pads, left, c :: s =>
    if c = '=' then
      if quad < 2 then decodeFrom quad pads left s
      else if 4 ≤ quad + pads + 1 then some []
      else decodeFrom quad (pads + 1) left s
    else
      match value c with
      | none => decodeFrom quad pads left s
      | some n =>
        match quad with
        | 0 => decodeFrom 1 0 n s
        | 1 => (decodeFrom 2 0 (n % 16) s).map (.ofNat (left * 4 + n / 16) :: ·)
        | 2 => (decodeFrom 3 0 (n % 4) s).map (.ofNat (left * 16 + n / 4) :: ·)
        | _ => (decodeFrom 0 0 0 s).map (.ofNat (left * 64 + n) :: ·)

/-- `urlsafe_b64decode`, of ASCII only. -/
def decode (s : List Char) : Option (List UInt8) :=
  if s.all (·.toNat < 128) then decodeFrom 0 0 0 s else none

/-- `s.rstrip("=")`. -/
def unpad (s : List Char) : List Char := (s.reverse.dropWhile (· = '=')).reverse

/-- `s + "=" * (-len(s) % 4)`. -/
def repad (s : List Char) : List Char := s ++ .replicate ((4 - s.length % 4) % 4) '='

/-! ## Round trip -/

theorem value_digit : ∀ n < 64, value (digit n) = some n := by decide

theorem digit_ne : ∀ n < 64, digit n ≠ '=' := by decide

theorem digit_lt : ∀ n < 64, (digit n).toNat < 128 := by decide

section

variable {n left : ℕ} {s : List Char}

theorem decodeFrom_digit (hn : n < 64) {quad pads : ℕ} : decodeFrom quad pads left (digit n :: s) =
    match quad with
    | 0 => decodeFrom 1 0 n s
    | 1 => (decodeFrom 2 0 (n % 16) s).map (.ofNat (left * 4 + n / 16) :: ·)
    | 2 => (decodeFrom 3 0 (n % 4) s).map (.ofNat (left * 16 + n / 4) :: ·)
    | _ => (decodeFrom 0 0 0 s).map (.ofNat (left * 64 + n) :: ·) := by
  rw [decodeFrom, if_neg (digit_ne n hn), value_digit n hn]

end

/-- The bytes that the bits of digits are put together to. -/
theorem ofNat_eq {a : UInt8} {n : ℕ} (h : n = a.toNat) : UInt8.ofNat n = a := by
  rw [h, UInt8.ofNat_toNat]

/-- What has been encoded is read. -/
theorem decodeFrom_encode (bytes : List UInt8) : decodeFrom 0 0 0 (encode bytes) = some bytes := by
  fun_induction encode bytes with
  | case1 => rfl
  | case2 a =>
    have ha := a.toNat_lt
    have hbyte : UInt8.ofNat (a.toNat / 4 * 4 + a.toNat % 4 * 16 / 16) = a := ofNat_eq (by omega)
    have hend : decodeFrom 2 0 (a.toNat % 4 * 16 % 16) ['=', '='] = some [] := rfl
    simp only [decodeFrom_digit (by omega : a.toNat / 4 < 64),
      decodeFrom_digit (by omega : a.toNat % 4 * 16 < 64), hend, Option.map_some, hbyte]
  | case3 a b =>
    have ha := a.toNat_lt
    have hb := b.toNat_lt
    have hbyte : UInt8.ofNat (a.toNat / 4 * 4 + (a.toNat % 4 * 16 + b.toNat / 16) / 16) = a :=
      ofNat_eq (by omega)
    have hbyte' : UInt8.ofNat ((a.toNat % 4 * 16 + b.toNat / 16) % 16 * 16 + b.toNat % 16 * 4 / 4) =
        b := ofNat_eq (by omega)
    have hend : decodeFrom 3 0 (b.toNat % 16 * 4 % 4) ['='] = some [] := rfl
    simp only [decodeFrom_digit (by omega : a.toNat / 4 < 64),
      decodeFrom_digit (by omega : a.toNat % 4 * 16 + b.toNat / 16 < 64),
      decodeFrom_digit (by omega : b.toNat % 16 * 4 < 64), hend, Option.map_some, hbyte, hbyte']
  | case4 a b c bytes ih =>
    have ha := a.toNat_lt
    have hb := b.toNat_lt
    have hc := c.toNat_lt
    have hbyte : UInt8.ofNat (a.toNat / 4 * 4 + (a.toNat % 4 * 16 + b.toNat / 16) / 16) = a :=
      ofNat_eq (by omega)
    have hbyte' : UInt8.ofNat ((a.toNat % 4 * 16 + b.toNat / 16) % 16 * 16 +
        (b.toNat % 16 * 4 + c.toNat / 64) / 4) = b := ofNat_eq (by omega)
    have hbyte'' : UInt8.ofNat ((b.toNat % 16 * 4 + c.toNat / 64) % 4 * 64 + c.toNat % 64) = c :=
      ofNat_eq (by omega)
    simp only [decodeFrom_digit (by omega : a.toNat / 4 < 64),
      decodeFrom_digit (by omega : a.toNat % 4 * 16 + b.toNat / 16 < 64),
      decodeFrom_digit (by omega : b.toNat % 16 * 4 + c.toNat / 64 < 64),
        decodeFrom_digit (by omega : c.toNat % 64 < 64),
      ih, Option.map_some, hbyte, hbyte', hbyte'']

/-- The digits of an encoded text: a whole number of groups, but for its padding. -/
theorem encode_eq (bytes : List UInt8) : ∃ digits pads,
    encode bytes = digits ++ List.replicate pads '=' ∧
    (∀ c ∈ digits, c ≠ '=' ∧ c.toNat < 128) ∧ pads < 4 ∧ (digits.length + pads) % 4 = 0 ∧
      digits.length = (4 * bytes.length + 2) / 3 := by
  have hdigit : ∀ n < 64, digit n ≠ '=' ∧ (digit n).toNat < 128 :=
    fun n hn => ⟨digit_ne n hn, digit_lt n hn⟩
  fun_induction encode bytes with
  | case1 => exact ⟨[], 0, rfl, nofun, by decide, rfl, rfl⟩
  | case2 a =>
    have ha := a.toNat_lt
    refine ⟨[_, _], 2, rfl, ?_, by decide, by simp, by simp⟩
    simp only [List.forall_mem_cons]
    exact ⟨hdigit _ (by omega), hdigit _ (by omega), nofun⟩
  | case3 a b =>
    have ha := a.toNat_lt
    have hb := b.toNat_lt
    refine ⟨[_, _, _], 1, rfl, ?_, by decide, by simp, by simp⟩
    simp only [List.forall_mem_cons]
    exact ⟨hdigit _ (by omega), hdigit _ (by omega), hdigit _ (by omega), nofun⟩
  | case4 a b c bytes ih =>
    have ha := a.toNat_lt
    have hb := b.toNat_lt
    have hc := c.toNat_lt
    obtain ⟨digits, pads, heq, hdigits, hpads, hlen, hlen'⟩ := ih
    refine ⟨_ :: _ :: _ :: _ :: digits, pads, by rw [heq]; rfl, ?_, hpads, ?_, ?_⟩
    · simp only [List.forall_mem_cons]
      exact ⟨hdigit _ (by omega), hdigit _ (by omega), hdigit _ (by omega),
        hdigit _ (by omega), hdigits⟩
    · simp only [List.length_cons]
      omega
    · simp only [List.length_cons]
      omega

theorem unpad_append {digits : List Char} (hdigits : ∀ c ∈ digits, c ≠ '=') (pads : ℕ) :
    unpad (digits ++ List.replicate pads '=') = digits := by
  have hreverse : digits.reverse.dropWhile (fun c => decide (c = '=')) = digits.reverse := by
    rw [List.dropWhile_eq_self_iff]
    intro hl hc
    exact hdigits _ (List.mem_reverse.1 (List.getElem_mem hl)) (of_decide_eq_true hc)
  rw [unpad, List.reverse_append, List.reverse_replicate, List.dropWhile_append_of_pos, hreverse,
    List.reverse_reverse]
  intro c hc
  exact decide_eq_true (List.eq_of_mem_replicate hc)

/-- The length of an encoded text without its padding. -/
theorem length_unpad_encode (bytes : List UInt8) :
    (unpad (encode bytes)).length = (4 * bytes.length + 2) / 3 := by
  obtain ⟨digits, pads, heq, hdigits, -, -, hlen⟩ := encode_eq bytes
  rw [heq, unpad_append fun c hc => (hdigits c hc).1, hlen]

/-- The padding may be left out, and put back. -/
theorem repad_unpad_encode (bytes : List UInt8) : repad (unpad (encode bytes)) = encode bytes := by
  obtain ⟨digits, pads, heq, hdigits, hpads, hlen, -⟩ := encode_eq bytes
  have hunpad : unpad (encode bytes) = digits := by
    rw [heq, unpad_append fun c hc => (hdigits c hc).1]
  have hcount : (4 - digits.length % 4) % 4 = pads := by omega
  rw [hunpad, repad, hcount, heq]

/-- Without its padding, an encoded text is read as well. -/
theorem decode_repad (bytes : List UInt8) : decode (repad (unpad (encode bytes))) = some bytes := by
  rw [repad_unpad_encode, decode, if_pos, decodeFrom_encode]
  obtain ⟨digits, pads, heq, hdigits, -⟩ := encode_eq bytes
  rw [heq, List.all_eq_true]
  intro c hc
  rcases List.mem_append.1 hc with hc | hc
  · exact decide_eq_true (hdigits c hc).2
  · rw [List.eq_of_mem_replicate hc]
    rfl

end Text.Base64
