-- SUMMARY: Authenticated encryption with associated data, what an ideal one guarantees, and that there is one.
import Mathlib.Data.List.Basic

/-!
# Authenticated encryption

Keys, nonces, tags and ciphertexts are lists of bytes, and a byte is a number below 256. An ideal
scheme decrypts what was encrypted, under the same key and the same associated data only.
-/

structure Aead where
  /-- The tag and the ciphertext of a text, under a key, a nonce and associated data. -/
  encrypt : List Nat → List Nat → String → String → List Nat × List Nat
  decrypt : List Nat → List Nat → String → List Nat → List Nat → Option String

namespace Aead

structure Ideal (A : Aead) : Prop where
  decrypt_encrypt : ∀ key nonce aad text,
    A.decrypt key nonce aad (A.encrypt key nonce aad text).1 (A.encrypt key nonce aad text).2 = some text
  /-- What decrypts was encrypted under this key and for these data. -/
  authentic : ∀ {key key' nonce aad aad' text text'},
    A.decrypt key nonce aad (A.encrypt key' nonce aad' text').1 (A.encrypt key' nonce aad' text').2 =
      some text → key = key' ∧ aad = aad' ∧ text = text'
  tag_length : ∀ key nonce aad text, (A.encrypt key nonce aad text).1.length = 16
  ciphertext_ne : ∀ key nonce aad text, text ≠ "" → (A.encrypt key nonce aad text).2 ≠ []

/-! ## A labelled scheme -/

/-- A list with its length before it. -/
def frame (xs : List Nat) : List Nat := List.replicate xs.length 1 ++ 0 :: xs

theorem frame_append_inj {xs ys r r' : List Nat} (h : frame xs ++ r = frame ys ++ r') :
    xs = ys ∧ r = r' := by
  have hcount : ∀ {m n : Nat} {as bs : List Nat},
      List.replicate m 1 ++ 0 :: as = List.replicate n 1 ++ 0 :: bs → m = n ∧ as = bs := by
    intro m
    induction m with
    | zero =>
      intro n as bs h
      cases n with
      | zero => exact ⟨rfl, (List.cons.inj h).2⟩
      | succ n => cases h
    | succ m ih =>
      intro n as bs h
      cases n with
      | zero => cases h
      | succ n =>
        obtain ⟨hmn, has⟩ := ih (List.cons.inj h).2
        exact ⟨congrArg Nat.succ hmn, has⟩
  unfold frame at h
  simp only [List.append_assoc, List.cons_append] at h
  obtain ⟨hlength, hrest⟩ := hcount h
  exact List.append_inj hrest hlength

/-- The bytes of a text. -/
def bytes (s : String) : List Nat := s.toByteArray.data.toList.map UInt8.toNat

theorem bytes_injective {s t : String} (h : bytes s = bytes t) : s = t := by
  apply String.toByteArray_inj.mp
  apply ByteArray.ext
  apply Array.toList_inj.mp
  exact List.map_injective_iff.mpr (fun _ _ => UInt8.toNat_inj.mp) h

/-- The ciphertext names its key and its associated data. -/
def label (key : List Nat) (aad text : String) : List Nat := frame key ++ (frame (bytes aad) ++ bytes text)

theorem label_injective {key key' : List Nat} {aad aad' text text' : String}
    (h : label key aad text = label key' aad' text') : key = key' ∧ aad = aad' ∧ text = text' := by
  obtain ⟨hkey, h⟩ := frame_append_inj h
  obtain ⟨haad, htext⟩ := frame_append_inj h
  exact ⟨hkey, bytes_injective haad, bytes_injective htext⟩

open Classical in
/-- A scheme without secrets that reads the labels. -/
noncomputable def labelled : Aead where
  encrypt key _ aad text := (List.replicate 16 0, label key aad text)
  decrypt key _ aad _ ciphertext :=
    if h : ∃ text, label key aad text = ciphertext then some h.choose else none

theorem ideal_labelled : Ideal labelled where
  decrypt_encrypt key nonce aad text := by
    have h : ∃ text', label key aad text' = label key aad text := ⟨text, rfl⟩
    unfold labelled
    dsimp only
    rw [dif_pos h, (label_injective h.choose_spec).2.2]
  authentic {key key' nonce aad aad' text text'} hopen := by
    unfold labelled at hopen
    dsimp only at hopen
    split at hopen
    · rename_i h
      obtain rfl := Option.some.inj hopen
      exact label_injective h.choose_spec
    · cases hopen
  tag_length _ _ _ _ := List.length_replicate
  ciphertext_ne key nonce aad text _ h := by
    have hframe : frame key ≠ [] := by simp [frame]
    exact hframe (List.append_eq_nil_iff.mp h).1

end Aead
