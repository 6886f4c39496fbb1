import Mathlib.Data.List.Basic

universe u

namespace Nsumo.Lib.Memory

variable {α : Type u}

def load (off len : Nat) (mem : List α) : List α := (mem.drop off).take len

def store (off : Nat) (src mem : List α) : List α :=
  mem.take off ++ src ++ mem.drop (off + src.length)

theorem length_store {off : Nat} {src mem : List α} (h : off + src.length ≤ mem.length) :
    (store off src mem).length = mem.length := by
  simp [store]
  omega

theorem length_load {off len : Nat} {mem : List α} (h : off + len ≤ mem.length) :
    (load off len mem).length = len := by
  simp [load]
  omega

theorem getElem?_store {off i : Nat} {src mem : List α} (h : off + src.length ≤ mem.length) :
    (store off src mem)[i]? =
      if off ≤ i ∧ i < off + src.length then src[i - off]? else mem[i]? := by
  simp only [store, List.append_assoc, List.getElem?_append, List.length_take,
    List.getElem?_take, List.getElem?_drop]
  grind

theorem getElem?_load {off len i : Nat} {mem : List α} :
    (load off len mem)[i]? = if i < len then mem[off + i]? else none := by
  simp [load, List.getElem?_take]

theorem load_store_same {off : Nat} {src mem : List α} (h : off + src.length ≤ mem.length) :
    load off src.length (store off src mem) = src := by
  apply List.ext_getElem?
  intro i
  rw [getElem?_load, getElem?_store h]
  grind

theorem load_store_disjoint {off off' len : Nat} {src mem : List α}
    (h : off + src.length ≤ mem.length) (hd : off' + len ≤ off ∨ off + src.length ≤ off') :
    load off' len (store off src mem) = load off' len mem := by
  apply List.ext_getElem?
  intro i
  simp only [getElem?_load, getElem?_store h]
  grind

def slot (size i : Nat) (mem : List α) : List α := load (i * size) size mem

theorem slot_end_le {size n i : Nat} (hi : i < n) : i * size + size ≤ n * size := by
  calc
    i * size + size = (i + 1) * size := by rw [Nat.succ_mul]
    _ ≤ n * size := Nat.mul_le_mul_right size hi

theorem length_slot {size n i : Nat} {mem : List α} (hmem : mem.length = n * size) (hi : i < n) :
    (slot size i mem).length = size := length_load (hmem ▸ slot_end_le hi)

theorem slot_store {size n i j : Nat} {src mem : List α} (hmem : mem.length = n * size)
    (hsrc : src.length = size) (hj : j < n) :
    slot size i (store (j * size) src mem) = if i = j then src else slot size i mem := by
  have hend : j * size + src.length ≤ mem.length := by
    rw [hsrc, hmem]
    exact slot_end_le hj
  by_cases hij : i = j
  · subst hij
    subst hsrc
    simp [slot, load_store_same hend]
  · rw [if_neg hij]
    apply load_store_disjoint hend
    rw [hsrc]
    rcases Nat.lt_or_gt_of_ne hij with h | h
    · exact .inl (slot_end_le h)
    · exact .inr (slot_end_le h)

end Nsumo.Lib.Memory
