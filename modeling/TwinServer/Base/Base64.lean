-- SUMMARY: The base64url encoding of bytes, its lenient decoder, and their round trip.
import Mathlib.Data.List.Basic

/-!
# Base64

`Buffer.toString("base64url")` and `Buffer.from(s, "base64url")`. Bytes are numbers below
256. The encoder writes no padding; the decoder takes the letters of both alphabets
and skips every other character.
-/

namespace Js.Base64

/-- The character of six bits. -/
def digit (n : Nat) : Char :=
  if n < 26 then .ofNat (65 + n)
  else if n < 52 then .ofNat (71 + n)
  else if n < 62 then .ofNat (n - 4)
  else if n = 62 then '-' else '_'

/-- The six bits of a character. -/
def value? (c : Char) : Option Nat :=
  let n := c.toNat
  if 65 ≤ n ∧ n ≤ 90 then some (n - 65)
  else if 97 ≤ n ∧ n ≤ 122 then some (n - 71)
  else if 48 ≤ n ∧ n ≤ 57 then some (n + 4)
  else if c = '-' ∨ c = '+' then some 62
  else if c = '_' ∨ c = '/' then some 63
  else none

/-- Three bytes as four times six bits. -/
@[local grind] def split : List Nat → List Nat
  | a :: b :: c :: bytes =>
    (a / 4) :: (a % 4 * 16 + b / 16) :: (b % 16 * 4 + c / 64) :: (c % 64) :: split bytes
  | [a, b] => [a / 4, a % 4 * 16 + b / 16, b % 16 * 4]
  | [a] => [a / 4, a % 4 * 16]
  | [] => []

/-- Four times six bits as three bytes. -/
def join : List Nat → List Nat
  | a :: b :: c :: d :: rest =>
    (a * 4 + b / 16) :: (b % 16 * 16 + c / 4) :: (c % 4 * 64 + d) :: join rest
  | [a, b, c] => [a * 4 + b / 16, b % 16 * 16 + c / 4]
  | [a, b] => [a * 4 + b / 16]
  | _ => []

def encode (bytes : List Nat) : List Char := (split bytes).map digit

def decode (cs : List Char) : List Nat := join (cs.filterMap value?)

/-! ## Round trip -/

theorem value?_digit : ∀ n < 64, value? (digit n) = some n := by
  decide

theorem split_lt {bytes : List Nat} (h : ∀ b ∈ bytes, b < 256) : ∀ n ∈ split bytes, n < 64 := by
  fun_induction split bytes with
  | case1 a b c bytes ih =>
    simp only [List.forall_mem_cons] at h ⊢
    obtain ⟨ha, hb, hc, hrest⟩ := h
    exact ⟨by omega, by omega, by omega, by omega, ih hrest⟩
  | case2 a b | case3 a =>
    simp only [List.forall_mem_cons] at h ⊢
    refine ⟨by omega, by omega, ?_⟩
    first
    | exact fun n hn => absurd hn List.not_mem_nil
    | exact ⟨by omega, fun n hn => absurd hn List.not_mem_nil⟩
  | case4 => exact fun n hn => absurd hn List.not_mem_nil

theorem join_split {bytes : List Nat} (h : ∀ b ∈ bytes, b < 256) : join (split bytes) = bytes := by
  fun_induction split bytes with
  | case1 a b c bytes ih =>
    simp only [List.forall_mem_cons] at h
    obtain ⟨ha, hb, hc, hrest⟩ := h
    rw [join, ih hrest]
    congr 1
    · omega
    · congr 1
      · omega
      · congr 1
        omega
  | case2 a b =>
    simp only [List.forall_mem_cons] at h
    rw [join]
    congr 1
    · omega
    · congr 1
      omega
  | case3 a =>
    simp only [List.forall_mem_cons] at h
    rw [join]
    congr 1
    omega
  | case4 => rfl

theorem decode_encode {bytes : List Nat} (h : ∀ b ∈ bytes, b < 256) :
    decode (encode bytes) = bytes := by
  have hvalues : ∀ ns : List Nat, (∀ n ∈ ns, n < 64) → (ns.map digit).filterMap value? = ns := by
    intro ns hns
    induction ns with
    | nil => rfl
    | cons n ns ih =>
        obtain ⟨hn, hns⟩ := List.forall_mem_cons.mp hns
        rw [List.map_cons, List.filterMap_cons, value?_digit n hn, ih hns]
  unfold decode encode
  rw [hvalues _ (split_lt h), join_split h]

end Js.Base64
