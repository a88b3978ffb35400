-- SUMMARY: Authenticated encryption of bytes with associated data, what an ideal cipher guarantees, and one that computes.
import Mathlib.Data.List.Basic

/-!
# Ciphers

An authenticated cipher takes a text of bytes to a tag and a body. An ideal one opens what was sealed under the same key
and for the same associated data, and nothing that was sealed otherwise. The labelled cipher, which hides nothing, is
ideal in this sense.
-/

structure Cipher where
  /-- The tag and the body of a text, under a key, a nonce and associated data. -/
  encrypt : List UInt8 → List UInt8 → List UInt8 → List UInt8 → List UInt8 × List UInt8
  decrypt : List UInt8 → List UInt8 → List UInt8 → List UInt8 → List UInt8 → Option (List UInt8)

namespace Cipher

structure Ideal (C : Cipher) : Prop where
  decrypt_encrypt : ∀ key nonce aad text,
    C.decrypt key nonce aad (C.encrypt key nonce aad text).1 (C.encrypt key nonce aad text).2 = some text
  /-- What opens was sealed under this key and for these data. -/
  authentic : ∀ {key key' nonce aad aad' text text'},
    C.decrypt key nonce aad (C.encrypt key' nonce aad' text').1 (C.encrypt key' nonce aad' text').2 =
      some text → key = key' ∧ aad = aad' ∧ text = text'
  tag_length : ∀ key nonce aad text, (C.encrypt key nonce aad text).1.length = 16

/-! ## A labelled cipher -/

/-- A list with its length before it. -/
def frame (xs : List UInt8) : List UInt8 := List.replicate xs.length 1 ++ 0 :: xs

/-- A length, and the list that it stands before. -/
def unframe (count : Nat) : List UInt8 → Option (List UInt8 × List UInt8)
  | [] => none
  | b :: bs => if b = 0 then some (bs.take count, bs.drop count) else unframe (count + 1) bs

theorem unframe_frame (xs rest : List UInt8) : unframe 0 (frame xs ++ rest) = some (xs, rest) := by
  have hcount : ∀ m count : Nat, unframe count (List.replicate m 1 ++ 0 :: (xs ++ rest)) =
      some ((xs ++ rest).take (count + m), (xs ++ rest).drop (count + m)) := by
    intro m
    induction m with
    | zero =>
        intro count
        rw [List.replicate_zero, List.nil_append, unframe, if_pos rfl, Nat.add_zero]
    | succ m ih =>
        intro count
        rw [List.replicate_succ, List.cons_append, unframe, if_neg (by decide), ih, Nat.add_assoc, Nat.add_comm 1]
  have hsame : frame xs ++ rest = List.replicate xs.length 1 ++ 0 :: (xs ++ rest) := by
    simp [frame]
  rw [hsame, hcount, Nat.zero_add, List.take_left, List.drop_left]

/-- The body names its key and its associated data. -/
def label (key aad text : List UInt8) : List UInt8 := frame key ++ (frame aad ++ text)

/-- The key, the associated data and the text of a body. -/
def unlabel (body : List UInt8) : Option (List UInt8 × List UInt8 × List UInt8) := do
  let (key, rest) ← unframe 0 body
  let (aad, text) ← unframe 0 rest
  return (key, aad, text)

theorem unlabel_label (key aad text : List UInt8) : unlabel (label key aad text) = some (key, aad, text) := by
  rw [unlabel, label, unframe_frame]
  change (unframe 0 (frame aad ++ text) >>= _) = _
  rw [unframe_frame]
  rfl

/-- A cipher without secrets that reads the labels. -/
def labelled : Cipher where
  encrypt key _ aad text := (List.replicate 16 0, label key aad text)
  decrypt key _ aad _ body :=
    match unlabel body with
    | some (key', aad', text) => if key = key' ∧ aad = aad' then some text else none
    | none => none

theorem ideal_labelled : Ideal labelled where
  decrypt_encrypt key nonce aad text := by
    simp only [labelled, unlabel_label, and_self, if_true]
  authentic {key key' nonce aad aad' text text'} h := by
    simp only [labelled, unlabel_label] at h
    obtain ⟨⟨hkey, haad⟩, htext⟩ := Option.ite_none_right_eq_some.mp h
    exact ⟨hkey, haad, (Option.some.inj htext).symm⟩
  tag_length _ _ _ _ := List.length_replicate

end Cipher
