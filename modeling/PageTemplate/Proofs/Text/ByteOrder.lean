import Mathlib.Algebra.Group.Nat.Defs
import PageTemplate.KeywordTable

/-!
# Texts in the order of their bytes

Texts are compared character by character, and characters by their codes.  The bytes of the
UTF-8 form, compared one by one, give the same order.

The first byte of a character tells how many bytes follow it, and it is higher the more there
are.  So two first bytes that differ are in the order of the codes.  If they agree, the codes
differ in lower bits only, and the bytes after the first hold these six by six, from the highest
ones on.

**Results.**
* `FirstByte.lt_or_eq`: the first bytes decide, or else the lower bits do.
* `lastBytes_append_lt`: the bytes after the first are in the order of the lower bits.
* `utf8EncodeChar_append_lt`: of two characters, the bytes of the lower one come first, whatever
  follows them.
* `utf8_lt_iff`: texts are in the order of their bytes.
-/

namespace PageTemplate
namespace Text

/-- The bytes of the UTF-8 form. -/
def utf8 (t : Text) : List UInt8 :=
  (String.ofList t).toByteArray.data.toList

theorem utf8_eq_flatMap (t : Text) :
    t.utf8 = t.flatMap String.utf8EncodeChar := by
  rw [utf8, String.toByteArray_ofList, List.utf8Encode, List.data_toByteArray]

@[simp] theorem utf8_nil :
    utf8 [] = [] :=
  utf8_eq_flatMap []

@[simp] theorem utf8_cons (c : Char) (t : Text) :
    utf8 (c :: t) = String.utf8EncodeChar c ++ t.utf8 := by
  rw [utf8_eq_flatMap, utf8_eq_flatMap, List.flatMap_cons]

/-! ## Characters -/

/-- Whether `b` is the first byte of the character with the code `v`, and `n` more follow it. -/
inductive FirstByte (v : Nat) : Nat → Nat → Prop
  | one (hle : v ≤ 0x7f) : FirstByte v 0 v
  | two (hlt : 0x7f < v) (hle : v ≤ 0x7ff) : FirstByte v 1 (v / 64 + 0xc0)
  | three (hlt : 0x7ff < v) (hle : v ≤ 0xffff) : FirstByte v 2 (v / 4096 + 0xe0)
  | four (hlt : 0xffff < v) (hle : v ≤ 0x10ffff) : FirstByte v 3 (v / 262144 + 0xf0)

/-- The last `n` bytes of the character with the code `v`. -/
def lastBytes (v : Nat) : Nat → List UInt8
  | 0 => []
  | n + 1 => UInt8.ofNat (v / 64 ^ n % 64 + 0x80) :: lastBytes v n

/-- The encoding of a character is its first byte and the bytes for its lower bits. -/
theorem exists_firstByte (c : Char) :
    ∃ n b, FirstByte c.toNat n b ∧
      String.utf8EncodeChar c = UInt8.ofNat b :: lastBytes c.toNat n := by
  have hcode : c.toNat ≤ 0x10ffff := by
    rcases c.valid with h | ⟨-, h⟩
    · exact Nat.le_of_lt (Nat.lt_trans h (by decide))
    · exact Nat.le_of_lt_succ h
  rw [String.utf8EncodeChar, Char.toNat_val]
  split
  · next hle =>
      exact ⟨0, _, .one hle, rfl⟩
  split
  · next hlt hle =>
      have hbits : c.toNat / 64 % 32 = c.toNat / 64 := by omega
      exact ⟨1, _, .two (Nat.lt_of_not_le hlt) hle, by simp [lastBytes, hbits]⟩
  split
  · next hlt hle =>
      have hbits : c.toNat / 4096 % 16 = c.toNat / 4096 := by omega
      exact ⟨2, _, .three (Nat.lt_of_not_le hlt) hle, by simp [lastBytes, hbits]⟩
  · next hlt =>
      have hbits : c.toNat / 262144 % 8 = c.toNat / 262144 := by omega
      exact ⟨3, _, .four (Nat.lt_of_not_le hlt) hcode, by simp [lastBytes, hbits]⟩

section Order

variable {v w m n a b : Nat}

theorem FirstByte.lt_size (h : FirstByte v n b) :
    b < UInt8.size := by
  cases h <;> simp only [UInt8.size] <;> omega

/-- First bytes are in the order of the codes, unless they agree and lower bits decide. -/
theorem FirstByte.lt_or_eq
    (hv : FirstByte v m a) (hw : FirstByte w n b) (h : v < w) :
    a < b ∨ a = b ∧ m = n ∧ v % 64 ^ n < w % 64 ^ n := by
  -- Characters with different numbers of bytes have first bytes from ranges that do not meet.
  cases hv <;> cases hw <;> omega

/-- The bytes after the first are in the order of the bits that they hold. -/
theorem lastBytes_append_lt (h : v % 64 ^ n < w % 64 ^ n) (s t : List UInt8) :
    lastBytes v n ++ s < lastBytes w n ++ t := by
  induction n with
  | zero =>
      simp [Nat.mod_one] at h
  | succ n ih =>
      have hv : v / 64 ^ n % 64 < 64 := Nat.mod_lt _ (by decide)
      have hw : w / 64 ^ n % 64 < 64 := Nat.mod_lt _ (by decide)
      have hlow : w % 64 ^ n < 64 ^ n := Nat.mod_lt w (Nat.pow_pos (by decide))
      rw [Nat.mod_pow_succ, Nat.mod_pow_succ] at h
      simp only [lastBytes, List.cons_append, List.cons_lt_cons_iff]
      rcases Nat.lt_trichotomy (v / 64 ^ n % 64) (w / 64 ^ n % 64) with hlt | heq | hgt
      · have hsize : UInt8.size = 256 := rfl
        exact Or.inl ((UInt8.ofNat_lt_iff_lt (by omega) (by omega)).mpr (by omega))
      · rw [heq] at h ⊢
        exact Or.inr ⟨rfl, ih (Nat.lt_of_add_lt_add_right h)⟩
      · -- Lower bits never make up for higher ones.
        have hmul := Nat.mul_le_mul_left (64 ^ n) hgt
        rw [Nat.mul_succ] at hmul
        omega

end Order

/-- A lesser character has the lesser encoding, whatever follows. -/
theorem utf8EncodeChar_append_lt {c d : Char} (h : c < d) (s t : List UInt8) :
    String.utf8EncodeChar c ++ s < String.utf8EncodeChar d ++ t := by
  obtain ⟨m, a, hc, hcbytes⟩ := exists_firstByte c
  obtain ⟨n, b, hd, hdbytes⟩ := exists_firstByte d
  rw [hcbytes, hdbytes, List.cons_append, List.cons_append, List.cons_lt_cons_iff]
  rcases hc.lt_or_eq hd h with hlt | ⟨rfl, rfl, hlt⟩
  · exact Or.inl ((UInt8.ofNat_lt_iff_lt hc.lt_size hd.lt_size).mpr hlt)
  · exact Or.inr ⟨rfl, lastBytes_append_lt hlt s t⟩

/-! ## Texts -/

/-- A text that is before another one has the lesser bytes. -/
theorem utf8_lt_of_lt {s t : Text} (h : s < t) :
    s.utf8 < t.utf8 := by
  induction s generalizing t with
  | nil =>
      cases t with
      | nil =>
          exact absurd h (List.lt_irrefl [])
      | cons d t =>
          obtain ⟨n, b, -, hbytes⟩ := exists_firstByte d
          rw [utf8_nil, utf8_cons, hbytes]
          exact List.nil_lt_cons _ _
  | cons c s ih =>
      cases t with
      | nil =>
          exact absurd h (List.not_lt_nil _)
      | cons d t =>
          rw [utf8_cons, utf8_cons]
          rcases List.cons_lt_cons_iff.mp h with hlt | ⟨rfl, hlt⟩
          · exact utf8EncodeChar_append_lt hlt _ _
          · exact List.append_left_lt (ih hlt)

/-- Texts are in the order of their bytes. -/
theorem utf8_lt_iff (s t : Text) :
    s.utf8 < t.utf8 ↔ s < t := by
  constructor
  · -- Of two different texts one comes first, and its bytes do so too.
    intro h
    refine lt_of_not_lt ?_ ?_
    · intro hafter
      exact List.lt_asymm h (utf8_lt_of_lt hafter)
    · rintro rfl
      exact List.lt_irrefl _ h
  · exact utf8_lt_of_lt

end Text
end PageTemplate
