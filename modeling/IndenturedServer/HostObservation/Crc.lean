import IndenturedServer.Source.Archive

/-!
The checksum of the chunks of an image.

`crc32` looks up what the eight bits of a byte contribute in `CRC_TABLE`. That
this is the CRC-32 of the bits rests on linearity: the low byte of the register
and the rest of it can be shifted out apart, and the rest holds no bit yet that
would bring the polynomial in.
-/

namespace IndenturedServer.HostObservation

open Source

/-- One turn of the inner loop of `CRC_TABLE`. -/
def crcTurn (crc : BitVec 32) : BitVec 32 :=
  (crc >>> 1) ^^^ (0xedb88320#32 &&& (0#32 - (crc &&& 1#32)))

def crcTable : List (BitVec 32) :=
  (List.range 256).map fun index => crcTurn^[8] (BitVec.ofNat 32 index)

def crc32 (bytes : Text) : BitVec 32 :=
  ~~~ bytes.foldl (fun crc byte => (crc >>> 8) ^^^
    crcTable.getD ((crc ^^^ byte.toBitVec.setWidth 32) &&& 255#32).toNat 0#32) (~~~ 0#32)

/-- A bit is shifted out, and the polynomial is subtracted for a one. -/
def crcStep (crc : BitVec 32) : BitVec 32 :=
  if crc.getLsbD 0 then (crc >>> 1) ^^^ 0xedb88320#32 else crc >>> 1

/-- CRC-32, bit by bit. -/
def bitwiseCrc32 (bytes : Text) : BitVec 32 :=
  BitVec.allOnes 32 ^^^ bytes.foldl (fun crc byte => crcStep^[8] (crc ^^^ byte.toBitVec.setWidth 32))
    (BitVec.allOnes 32)

variable {x y : BitVec 32} {n : Nat}

theorem crcTurn_eq : crcTurn = crcStep := by
  ext1 crc
  have hlow : crc &&& 1#32 = if crc.getLsbD 0 then 1#32 else 0#32 := by
    rw [BitVec.and_one_eq_setWidth_ofBool_getLsbD]
    cases crc.getLsbD 0 <;> rfl
  rw [crcTurn, crcStep, hlow]
  cases crc.getLsbD 0 <;> simp

theorem crcStep_xor : crcStep (x ^^^ y) = crcStep x ^^^ crcStep y := by
  simp only [crcStep, BitVec.getLsbD_xor, BitVec.ushiftRight_xor_distrib]
  cases x.getLsbD 0 <;> cases y.getLsbD 0 <;> ext i <;>
    simp [Bool.xor_comm, Bool.xor_left_comm]

theorem iterate_crcStep_xor : crcStep^[n] (x ^^^ y) = crcStep^[n] x ^^^ crcStep^[n] y := by
  induction n generalizing x y with
  | zero => rfl
  | succ n ih => rw [Function.iterate_succ_apply, crcStep_xor, ih]; rfl

/-- Zeros are only shifted out. -/
theorem iterate_crcStep_of_low (h : ∀ i < n, x.getLsbD i = false) : crcStep^[n] x = x >>> n := by
  induction n generalizing x with
  | zero => simp
  | succ n ih =>
    have hstep : crcStep x = x >>> 1 := by rw [crcStep, h 0 (by omega), if_neg (by decide)]
    rw [Function.iterate_succ_apply, hstep, ih, ← BitVec.shiftRight_add, Nat.add_comm]
    intro i hi
    rw [BitVec.getLsbD_ushiftRight]
    exact h (1 + i) (by omega)

/-- The low byte and the rest. -/
theorem iterate_crcStep_eight {low : BitVec 32} (hlow : ∀ i, low.getLsbD i = decide (i < 8)) :
    crcStep^[8] x = (x >>> 8) ^^^ crcStep^[8] (x &&& low) := by
  have hsplit : x = (x &&& ~~~ low) ^^^ (x &&& low) := by
    ext i
    simp only [BitVec.getElem_xor, BitVec.getElem_and, BitVec.getElem_not]
    cases x[i] <;> cases low[i] <;> rfl
  have hhigh : crcStep^[8] (x &&& ~~~ low) = x >>> 8 := by
    rw [iterate_crcStep_of_low]
    · ext i
      simp only [BitVec.getElem_ushiftRight, BitVec.getLsbD_and, BitVec.getLsbD_not, hlow]
      grind
    · intro i hi
      simp [hlow, hi]
  conv_lhs => rw [hsplit]
  rw [iterate_crcStep_xor, hhigh]

theorem crcTable_getD (h : n < 256) : crcTable.getD n 0#32 = crcStep^[8] (BitVec.ofNat 32 n) := by
  simp [crcTable, crcTurn_eq, List.getD, h]

/-- One lookup stands for eight bits. -/
theorem crc32_eq_bitwise (bytes : Text) : crc32 bytes = bitwiseCrc32 bytes := by
  have hlow : ∀ i, (255#32).getLsbD i = decide (i < 8) := by
    intro i
    rw [BitVec.getLsbD_ofNat, show 255 = 2 ^ 8 - 1 from rfl, Nat.testBit_two_pow_sub_one]
    grind
  have hbyte : ∀ (crc : BitVec 32) (byte : UInt8), (crc >>> 8) ^^^ crcTable.getD
      ((crc ^^^ byte.toBitVec.setWidth 32) &&& 255#32).toNat 0#32 =
        crcStep^[8] (crc ^^^ byte.toBitVec.setWidth 32) := by
    intro crc byte
    have hshort : byte.toBitVec.setWidth 32 >>> 8 = 0#32 := by
      ext i
      simp
    have hindex : ((crc ^^^ byte.toBitVec.setWidth 32) &&& 255#32).toNat < 256 := by
      rw [BitVec.toNat_and]
      exact Nat.and_lt_two_pow _ (by decide : 255 < 2 ^ 8)
    rw [crcTable_getD hindex, BitVec.ofNat_toNat, BitVec.setWidth_eq,
      iterate_crcStep_eight (x := crc ^^^ byte.toBitVec.setWidth 32) hlow,
      BitVec.ushiftRight_xor_distrib, hshort, BitVec.xor_zero]
  rw [crc32, bitwiseCrc32, ← BitVec.allOnes_xor]
  simp only [hbyte]
  rfl

end IndenturedServer.HostObservation
