import Mathlib

/-!
# Hexadecimal text

Bytes are written as two lower-case digits each, and read back from digits of either
case.
-/

namespace Hex

def digit (n : ℕ) : UInt8 := if n < 10 then UInt8.ofNat (48 + n) else UInt8.ofNat (87 + n)

def value (c : UInt8) : Option ℕ :=
  if 48 ≤ c.toNat ∧ c.toNat ≤ 57 then some (c.toNat - 48)
  else if 97 ≤ c.toNat ∧ c.toNat ≤ 102 then some (c.toNat - 87)
  else if 65 ≤ c.toNat ∧ c.toNat ≤ 70 then some (c.toNat - 55)
  else none

def encode (bytes : List UInt8) : List UInt8 :=
  bytes.flatMap fun b => [digit (b.toNat / 16), digit (b.toNat % 16)]

/-- Text of an odd length, or with another character, is refused. -/
def decode : List UInt8 → Option (List UInt8)
  | [] => some []
  | [_] => none
  | high :: low :: text => do
      let high ← value high
      let low ← value low
      let bytes ← decode text
      return UInt8.ofNat (16 * high + low) :: bytes

theorem value_digit {n : ℕ} (h : n < 16) : value (digit n) = some n := by
  revert n
  decide

@[simp] theorem encode_append (bytes bytes' : List UInt8) :
    encode (bytes ++ bytes') = encode bytes ++ encode bytes' :=
  List.flatMap_append

theorem encode_flatMap {α : Type*} (f : α → List UInt8) (xs : List α) :
    encode (xs.flatMap f) = xs.flatMap fun x => encode (f x) :=
  List.flatMap_assoc

theorem length_encode (bytes : List UInt8) : (encode bytes).length = 2 * bytes.length := by
  simp [encode, Nat.mul_comm]

@[simp] theorem decode_encode (bytes : List UInt8) : decode (encode bytes) = some bytes := by
  induction bytes with
  | nil => rfl
  | cons b bytes ih =>
    have hb : b.toNat < 256 := UInt8.toNat_lt b
    have hhigh : value (digit (b.toNat / 16)) = some (b.toNat / 16) := value_digit (by omega)
    have hlow : value (digit (b.toNat % 16)) = some (b.toNat % 16) := value_digit (by omega)
    have hsum : UInt8.ofNat (16 * (b.toNat / 16) + b.toNat % 16) = b := by
      rw [Nat.div_add_mod, UInt8.ofNat_toNat]
    change decode (digit (b.toNat / 16) :: digit (b.toNat % 16) :: encode bytes) = _
    simp only [decode, hhigh, hlow, ih]
    exact congrArg (fun x => some (x :: bytes)) hsum

theorem not_marked_encode (bytes : List UInt8) : ¬ [48, 120] <+: encode bytes := by
  cases bytes with
  | nil => simp [encode]
  | cons b bytes =>
    intro h
    have hlow : value (digit (b.toNat % 16)) = some (b.toNat % 16) := value_digit (by omega)
    obtain ⟨rest, hrest⟩ := h
    have hdigit : 120 = digit (b.toNat % 16) := by
      have := congrArg (fun l => l[1]?) hrest
      simpa [encode] using this
    have hnone : value 120 = none := by decide
    rw [← hdigit, hnone] at hlow
    cases hlow

end Hex
