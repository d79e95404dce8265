/-!
# Unwrapping a counter sent modulo `2 h`

A counter that takes every integer value is transmitted by its residue modulo
`2 h`. A receiver that carries a nearby value, split into a multiple `msb` of
the modulus and a remainder `lsb`, adds or takes away one modulus when the new
residue lies half a modulus or more from the carried one (`selectMsb`).

> `selectMsb_add`: if the new value is less than `h` from the carried one, this
> recovers it.

The carried remainder need not be reduced: up to one and a half moduli the same
two comparisons still decide right.
-/

namespace Duckbox.Lib

/-- The multiple of `2 h` to add to the residue `lsb`. -/
def selectMsb (h prevMsb prevLsb lsb : Int) : Int :=
  if lsb < prevLsb ∧ h ≤ prevLsb - lsb then prevMsb + 2 * h
  else if prevLsb < lsb ∧ h < lsb - prevLsb then prevMsb - 2 * h
  else prevMsb

private theorem emod_window {h m v q : Int} (hm : 2 * h ∣ m) (hq : v = m + q) (h0 : 0 ≤ q)
    (hlt : q < 2 * h) : v % (2 * h) = q := by
  obtain ⟨c, rfl⟩ := hm
  rw [hq, Int.mul_add_emod_self_left, Int.emod_eq_of_lt h0 hlt]

/-- A value less than half a modulus from the carried one is recovered. -/
theorem selectMsb_add {h prevMsb prevLsb v : Int} (hm : 2 * h ∣ prevMsb)
    (h0 : 0 ≤ prevLsb) (hle : prevLsb ≤ 3 * h) (hlow : prevMsb + prevLsb - h < v)
    (hhigh : v < prevMsb + prevLsb + h) :
    selectMsb h prevMsb prevLsb (v % (2 * h)) + v % (2 * h) = v := by
  -- one modulus below the carried multiple, on it, or one above
  rcases Int.lt_or_le v prevMsb with hbelow | habove
  · have hres : v % (2 * h) = v - (prevMsb - 2 * h) :=
      emod_window (Int.dvd_sub hm (Int.dvd_refl _)) (by omega) (by omega) (by omega)
    unfold selectMsb
    rw [hres, if_neg (by omega), if_pos (by omega)]
    omega
  · rcases Int.lt_or_le v (prevMsb + 2 * h) with hon | hup
    · have hres : v % (2 * h) = v - prevMsb :=
        emod_window hm (by omega) (by omega) (by omega)
      unfold selectMsb
      rw [hres, if_neg (by omega), if_neg (by omega)]
      omega
    · have hres : v % (2 * h) = v - (prevMsb + 2 * h) :=
        emod_window (Int.dvd_add hm (Int.dvd_refl _)) (by omega) (by omega) (by omega)
      unfold selectMsb
      rw [hres, if_pos (by omega)]
      omega

theorem dvd_selectMsb {h prevMsb prevLsb lsb : Int} (hm : 2 * h ∣ prevMsb) :
    2 * h ∣ selectMsb h prevMsb prevLsb lsb := by
  unfold selectMsb
  split
  · exact Int.dvd_add hm (Int.dvd_refl _)
  · split
    · exact Int.dvd_sub hm (Int.dvd_refl _)
    · exact hm

end Duckbox.Lib
