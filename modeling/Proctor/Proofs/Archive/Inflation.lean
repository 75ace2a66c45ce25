import Proctor.Archive.Inflate
import Proctor.Proofs.Archive.Image

/-!
# Inflating what was deflated

A number in whole bytes of a stream is read from its bits as it is from the bytes. So a stored block
gives its contents, and a stream of stored blocks gives, block after block, what was deflated into
it.
-/

namespace Proctor.Inflate

open Archive (blockHead blockSize deflate littleEndian storedBlocks)
open Image (has_append_iff has_cons_iff)

variable {stream : Image} {place : Nat}

/-! ### Numbers -/

theorem bit?_eq {b : UInt8} (h : stream.Has place [b]) {k : Nat} (hk : k < 8) :
  bit? stream (8 * place + k) = some (b.toNat.testBit k)
  := by
  have hdiv : (8 * place + k) / 8 = place := by omega
  have hmod : (8 * place + k) % 8 = k := by omega
  rw [bit?, hdiv, hmod, h.getElem?_eq, Option.map_some]

/-- A number within a byte. -/
theorem number?_within {b : UInt8} (h : stream.Has place [b]) {count k : Nat}
    (hk : k + count ≤ 8) :
  number? stream count (8 * place + k) = some (b.toNat / Nat.pow 2 k % Nat.pow 2 count)
  := by
  induction count generalizing k with
  | zero => rw [number?, Nat.pow_eq, Nat.pow_eq, Nat.pow_zero, Nat.mod_one]
  | succ count ih =>
      have hlt : k < 8 := by omega
      have hrest : k + 1 + count ≤ 8 := by omega
      have hdiv : b.toNat / Nat.pow 2 (k + 1) = b.toNat / Nat.pow 2 k / 2 := by
        rw [Nat.div_div_eq_div_mul]
        rfl
      have hpow : Nat.pow 2 (count + 1) = 2 * Nat.pow 2 count := Nat.mul_comm _ _
      simp only [number?, bit?_eq h hlt, Nat.add_assoc (8 * place), ih hrest]
      rw [hdiv, hpow, Nat.mod_mul, Nat.toNat_testBit, Nat.add_comm]
      rfl

/-- Two numbers that follow each other make one. -/
theorem number?_add {m n position low high : Nat} (hlow : number? stream m position = some low)
    (hhigh : number? stream n (position + m) = some high) :
  number? stream (m + n) position = some (low + Nat.pow 2 m * high)
  := by
  induction m generalizing position low with
  | zero =>
      cases hlow
      rw [Nat.zero_add, ← Nat.add_zero position, hhigh, Nat.zero_add]
      exact congrArg some (Nat.one_mul high).symm
  | succ m ih =>
      rw [number?] at hlow
      split at hlow
      · next bit low' hbit hlow' =>
        cases hlow
        rw [Nat.add_right_comm m 1 n, Nat.add_comm m 1, ← Nat.add_assoc] at *
        simp only [number?, hbit, ih hlow' hhigh]
        have hpow : Nat.pow 2 (m + 1) = 2 * Nat.pow 2 m := Nat.mul_comm _ _
        rw [Nat.add_comm 1 m, hpow, Nat.mul_add, Nat.mul_assoc, Nat.add_right_comm]
      · cases hlow

/-- A number in whole bytes. -/
theorem number?_eq {width n : Nat} (h : stream.Has place (littleEndian width n))
    (hn : n < Nat.pow 256 width) :
  number? stream (8 * width) (8 * place) = some n
  := by
  induction width generalizing place n with
  | zero => rw [Nat.lt_one_iff.mp hn, Nat.mul_zero, number?]
  | succ width ih =>
      obtain ⟨hfirst, hrest⟩ := has_cons_iff.mp h
      have hdiv : n / 256 < Nat.pow 256 width := (Nat.div_lt_iff_lt_mul (by decide)).mpr hn
      have hlow : number? stream 8 (8 * place) = some (n % 256) := by
        rw [← Nat.add_zero (8 * place), number?_within hfirst (Nat.le_refl (0 + 8)),
          UInt8.toNat_ofNat']
        simp
      have hhigh : number? stream (8 * width) (8 * place + 8) = some (n / 256) := ih hrest hdiv
      rw [Nat.mul_add, Nat.add_comm, number?_add hlow hhigh]
      exact congrArg some (Nat.mod_add_div n 256)

/-! ### Stored blocks -/

section Block

variable {last : Bool} {size : Nat} {block : Bytes}
  (h : stream.Has place (blockHead last size ++ block)) (hlength : block.length = size)
  (hsize : size ≤ blockSize)

include h hlength hsize

theorem stored?_eq (contents : Array UInt8) :
  stored? stream contents (8 * place + 3)
    = some (contents ++ block.toArray, 8 * (place + 5 + size))
  := by
  rw [blockHead, List.cons_append, has_cons_iff, has_append_iff, has_append_iff] at h
  simp only [List.length_append, Archive.length_littleEndian, Nat.add_assoc, Nat.reduceAdd] at h
  obtain ⟨-, ⟨hnumber, hcomplement⟩, hdata⟩ := h
  have hplace : (8 * place + 3 + 7) / 8 = place + 1 := by omega
  have hnumber : number? stream 16 (8 * (place + 1)) = some size :=
    number?_eq hnumber (Nat.lt_succ_of_le hsize)
  have hcomplement : number? stream 16 (8 * (place + 1) + 16) = some (blockSize - size) :=
    number?_eq hcomplement (Nat.lt_succ_of_le (Nat.sub_le _ _))
  have hsum : size + (blockSize - size) = 0xFFFF := Nat.add_sub_cancel' hsize
  have hstop : place + 1 + 4 + size ≤ stream.size := hlength ▸ hdata.size_le
  have hextract : stream.extract (place + 1 + 4) (place + 1 + 4 + size) = block.toArray := by
    rw [← Array.toList_inj, ← hlength]
    exact hdata.extract_eq
  simp [stored?, hplace, hnumber, hcomplement, hsum, hstop, hextract]

/-- A stored block gives its contents, and what follows it is read unless it is the last one. -/
theorem blocks?_succ (fuel : Nat) (contents : Array UInt8) :
  blocks? stream (fuel + 1) contents (8 * place)
    = if last then some (contents ++ block.toArray)
      else blocks? stream fuel (contents ++ block.toArray) (8 * (place + 5 + size))
  := by
  have hfirst := (has_cons_iff.mp (has_append_iff.mp h).1).1
  have hlast := number?_within hfirst (show 0 + 1 ≤ 8 by decide)
  have hkind := number?_within hfirst (show 1 + 2 ≤ 8 by decide)
  rw [Nat.add_zero] at hlast
  rw [blocks?, hlast, hkind]
  cases last with
  | false => simp [block?, stored?_eq h hlength hsize]
  | true => simp [block?, stored?_eq h hlength hsize]

end Block

/-- A stream of stored blocks gives what the blocks store, after the contents so far. -/
theorem blocks?_storedBlocks {data : Bytes} (h : stream.Has place (storedBlocks data))
    {fuel : Nat} (hfuel : (storedBlocks data).length ≤ fuel) (contents : Array UInt8) :
  blocks? stream fuel contents (8 * place) = some (contents ++ data.toArray)
  := by
  -- Each block uses up one unit of fuel, and takes more than that in the stream.
  fun_induction storedBlocks data generalizing place fuel contents with
  | case1 data hlast =>
      rw [List.length_append, Archive.length_blockHead] at hfuel
      obtain ⟨fuel, rfl⟩ : ∃ n, fuel = n + 1 := ⟨fuel - 1, by omega⟩
      rw [blocks?_succ h rfl hlast, if_pos rfl]
  | case2 data hmore ih =>
      have hlength : (data.take blockSize).length = blockSize :=
        List.length_take_of_le (Nat.le_of_not_le hmore)
      have hdata : (data.take blockSize).toArray ++ (data.drop blockSize).toArray
          = data.toArray := by simp
      rw [List.length_append, List.length_append, Archive.length_blockHead] at hfuel
      obtain ⟨fuel, rfl⟩ : ∃ n, fuel = n + 1 := ⟨fuel - 1, by omega⟩
      obtain ⟨hblock, hrest⟩ := has_append_iff.mp h
      rw [List.length_append, Archive.length_blockHead, hlength, ← Nat.add_assoc] at hrest
      rw [blocks?_succ hblock hlength (Nat.le_refl blockSize), if_neg Bool.false_ne_true,
        ih hrest (by omega), Array.append_assoc, hdata]

/-- What was deflated is inflated again. -/
theorem contents?_deflate (data : Bytes) :
  contents? (deflate data).toArray = some data
  := by
  cases data with
  | nil => decide +kernel
  | cons b rest =>
      have hfuel : (storedBlocks (b :: rest)).length
          ≤ length (storedBlocks (b :: rest)).toArray := by
        rw [length, List.size_toArray]
        omega
      have hblocks := blocks?_storedBlocks (Image.has_toArray _) hfuel #[]
      rw [deflate, List.isEmpty_cons, if_neg Bool.false_ne_true, contents?, ← Nat.mul_zero 8,
        hblocks]
      simp

end Proctor.Inflate
