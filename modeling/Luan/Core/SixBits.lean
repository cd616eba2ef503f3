import Mathlib.Data.List.Basic
import Mathlib.Tactic.Common

/-!
# Bytes in digits of six bits

Three bytes are four digits of six bits.  At the end one byte is two digits and two bytes are
three, with zeros behind the last bit.

* `octets_sextets` — the bytes come back from their digits.
* `sextets_octets` — and the digits of whole groups from their bytes.
* `octets_append` — the bytes of whole groups stay as they are.
-/

namespace Luan

/-- The digits of some bytes. -/
def sextets : List UInt8 → List ℕ
  | a :: b :: c :: s =>
      a.toNat / 4 :: (a.toNat % 4 * 16 + b.toNat / 16) :: (b.toNat % 16 * 4 + c.toNat / 64)
        :: c.toNat % 64 :: sextets s
  | [a, b] => [a.toNat / 4, a.toNat % 4 * 16 + b.toNat / 16, b.toNat % 16 * 4]
  | [a] => [a.toNat / 4, a.toNat % 4 * 16]
  | [] => []

/-- The bytes of some digits; what is less than a byte at the end is cut. -/
def octets : List ℕ → List UInt8
  | d₁ :: d₂ :: d₃ :: d₄ :: ds =>
      .ofNat (d₁ * 4 + d₂ / 16) :: .ofNat (d₂ * 16 + d₃ / 4) :: .ofNat (d₃ * 64 + d₄) :: octets ds
  | [d₁, d₂, d₃] => [.ofNat (d₁ * 4 + d₂ / 16), .ofNat (d₂ * 16 + d₃ / 4)]
  | [d₁, d₂] => [.ofNat (d₁ * 4 + d₂ / 16)]
  | _ => []

lemma ofNat_eq {n : ℕ} {a : UInt8} (h : n % 256 = a.toNat) : UInt8.ofNat n = a := by
  rw [← UInt8.toNat_inj, UInt8.toNat_ofNat']
  exact h

/-- **The bytes come back.** -/
theorem octets_sextets (s : List UInt8) : octets (sextets s) = s := by
  induction s using sextets.induct with
  | case1 a b c s ih =>
      have ha := a.toNat_lt
      have hb := b.toNat_lt
      have hc := c.toNat_lt
      rw [sextets, octets, ih, ofNat_eq (a := a) (by omega), ofNat_eq (a := b) (by omega),
        ofNat_eq (a := c) (by omega)]
  | case2 a b =>
      have ha := a.toNat_lt
      have hb := b.toNat_lt
      rw [sextets, octets, ofNat_eq (a := a) (by omega), ofNat_eq (a := b) (by omega)]
  | case3 a =>
      have ha := a.toNat_lt
      rw [sextets, octets, ofNat_eq (a := a) (by omega)]
  | case4 => rfl

/-- **The digits come back**, of whole groups. -/
theorem sextets_octets {ds : List ℕ} (hlength : ds.length % 4 = 0) (h : ∀ d ∈ ds, d < 64) :
    sextets (octets ds) = ds := by
  induction ds using octets.induct with
  | case1 d₁ d₂ d₃ d₄ ds ih =>
      have h₁ := h d₁ (by simp)
      have h₂ := h d₂ (by simp)
      have h₃ := h d₃ (by simp)
      have h₄ := h d₄ (by simp)
      have hrest : sextets (octets ds) = ds :=
        ih (by simp only [List.length_cons] at hlength; omega) fun d hd => h d (by simp [hd])
      have ha : (UInt8.ofNat (d₁ * 4 + d₂ / 16)).toNat = d₁ * 4 + d₂ / 16 :=
        UInt8.toNat_ofNat_of_lt' (by show _ < 256; omega)
      have hb : (UInt8.ofNat (d₂ * 16 + d₃ / 4)).toNat = (d₂ * 16 + d₃ / 4) % 256 :=
        UInt8.toNat_ofNat'
      have hc : (UInt8.ofNat (d₃ * 64 + d₄)).toNat = (d₃ * 64 + d₄) % 256 := UInt8.toNat_ofNat'
      rw [octets, sextets, hrest, ha, hb, hc]
      congr 1
      · omega
      · congr 1
        · omega
        · congr 1
          · omega
          · congr 1
            omega
  | case2 d₁ d₂ d₃ => simp at hlength
  | case3 d₁ d₂ => simp at hlength
  | case4 ds h₁ h₂ h₃ =>
      match ds with
      | [] => rfl
      | [d] => simp at hlength
      | [d₁, d₂] => exact absurd rfl (h₃ d₁ d₂)
      | [d₁, d₂, d₃] => exact absurd rfl (h₂ d₁ d₂ d₃)
      | d₁ :: d₂ :: d₃ :: d₄ :: ds => exact absurd rfl (h₁ d₁ d₂ d₃ d₄ ds)

/-- A digit has six bits. -/
lemma sextets_lt {s : List UInt8} : ∀ d ∈ sextets s, d < 64 := by
  induction s using sextets.induct with
  | case1 a b c s ih =>
      have ha := a.toNat_lt
      have hb := b.toNat_lt
      have hc := c.toNat_lt
      intro d hd
      simp only [sextets, List.mem_cons] at hd
      rcases hd with rfl | rfl | rfl | rfl | hd
      · omega
      · omega
      · omega
      · omega
      · exact ih d hd
  | case2 a b =>
      have ha := a.toNat_lt
      have hb := b.toNat_lt
      intro d hd
      simp only [sextets, List.mem_cons, List.not_mem_nil, or_false] at hd
      omega
  | case3 a =>
      have ha := a.toNat_lt
      intro d hd
      simp only [sextets, List.mem_cons, List.not_mem_nil, or_false] at hd
      omega
  | case4 => exact nofun

lemma length_sextets (s : List UInt8) :
    (sextets s).length = s.length / 3 * 4 + if s.length % 3 = 0 then 0 else s.length % 3 + 1 := by
  induction s using sextets.induct with
  | case1 a b c s ih =>
      simp only [sextets, List.length_cons, ih]
      rw [show s.length + 1 + 1 + 1 = s.length + 3 from rfl, Nat.add_div_right _ (by decide),
        Nat.add_mod_right]
      omega
  | case2 a b => simp [sextets]
  | case3 a => simp [sextets]
  | case4 => rfl

/-- Whole groups in front do not matter. -/
lemma octets_append {ds : List ℕ} (h : ds.length % 4 = 0) (es : List ℕ) :
    octets (ds ++ es) = octets ds ++ octets es := by
  induction ds using octets.induct with
  | case1 d₁ d₂ d₃ d₄ ds ih =>
      simp only [List.length_cons] at h
      rw [List.cons_append, List.cons_append, List.cons_append, List.cons_append, octets, octets,
        ih (by omega)]
      rfl
  | case2 d₁ d₂ d₃ => simp at h
  | case3 d₁ d₂ => simp at h
  | case4 ds h₁ h₂ h₃ =>
      match ds with
      | [] => rfl
      | [d] => simp at h
      | [d₁, d₂] => exact absurd rfl (h₃ d₁ d₂)
      | [d₁, d₂, d₃] => exact absurd rfl (h₂ d₁ d₂ d₃)
      | d₁ :: d₂ :: d₃ :: d₄ :: ds => exact absurd rfl (h₁ d₁ d₂ d₃ d₄ ds)

end Luan
