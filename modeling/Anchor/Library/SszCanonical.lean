import Mathlib
import Anchor.Library.Ssz

/-!
# Accepted encodings are canonical

The decoder leaves no byte unread and no choice in the offsets, so whatever it
accepts is the encoding of what it returns.
-/

namespace Ssz

/-! ## Integers -/

theorem leBytes_ofLe (bs : Bytes) : leBytes bs.length (ofLe bs) = bs := by
  induction bs with
  | nil => rfl
  | cons b bs ih =>
    have hlow : UInt8.ofNat (b.toNat + 256 * ofLe bs) = b := by
      apply UInt8.toNat_inj.mp
      have hb := b.toNat_lt
      rw [UInt8.toNat_ofNat']
      omega
    have hhigh : (b.toNat + 256 * ofLe bs) / 256 = ofLe bs := by
      have hb := b.toNat_lt
      omega
    rw [List.length_cons, leBytes, ofLe, hlow, hhigh, ih]

theorem ofLe_lt (bs : Bytes) : ofLe bs < 256 ^ bs.length := by
  induction bs with
  | nil => simp [ofLe]
  | cons b bs ih =>
    have hb := b.toNat_lt
    simp only [ofLe, List.length_cons, pow_succ]
    omega

variable {bs : Bytes}

theorem encodeU64_of_decodeU64 {n : UInt64} (h : decodeU64 bs = some n) :
    encodeU64 n = bs := by
  unfold decodeU64 at h
  split at h
  · rename_i hlen
    cases h
    have hlt : ofLe bs < 2 ^ 64 := by
      have h := ofLe_lt bs
      rw [hlen] at h
      exact h
    rw [encodeU64, UInt64.toNat_ofNat', Nat.mod_eq_of_lt hlt, ← hlen, leBytes_ofLe]
  · cases h

/-! ## Containers -/

def slotBytes : List Slot → Bytes
  | [] => []
  | .inl b :: s => b ++ slotBytes s
  | .inr off :: s => leBytes 4 off ++ slotBytes s

def slotWidth : Slot → Option ℕ
  | .inl b => some b.length
  | .inr _ => none

variable {shape : Shape}

theorem readHead_eq_some {slots : List Slot}
    (h : readHead shape bs = some slots) :
    slots.map slotWidth = shape ∧ slotBytes slots ++ bs.drop (shapeLength shape) = bs := by
  induction shape generalizing bs slots with
  | nil =>
    cases h
    exact ⟨rfl, by simp [slotBytes, shapeLength]⟩
  | cons w shape ih =>
    cases w with
    | some w =>
      simp only [readHead] at h
      split at h
      · cases h
      · rename_i hlen
        obtain ⟨rest, hrest, rfl⟩ := Option.map_eq_some_iff.mp h
        obtain ⟨hshape, hbytes⟩ := ih hrest
        have htake : (bs.take w).length = w := by
          rw [List.length_take]
          omega
        refine ⟨by simp [slotWidth, htake, hshape], ?_⟩
        rw [slotBytes, shapeLength, List.append_assoc, ← List.drop_drop, hbytes,
          List.take_append_drop]
    | none =>
      simp only [readHead] at h
      obtain ⟨off, hoff, h⟩ := Option.bind_eq_some_iff.mp h
      obtain ⟨rest, hrest, rfl⟩ := Option.map_eq_some_iff.mp h
      obtain ⟨hshape, hbytes⟩ := ih hrest
      unfold readOffset at hoff
      split at hoff
      · cases hoff
      · rename_i hlen
        cases hoff
        have htake : (bs.take 4).length = 4 := by
          rw [List.length_take]
          omega
        have hle : leBytes 4 (ofLe (bs.take 4)) = bs.take 4 := by
          have hread := leBytes_ofLe (bs.take 4)
          rwa [htake] at hread
        refine ⟨by simp [slotWidth, hshape], ?_⟩
        rw [slotBytes, shapeLength, hle, List.append_assoc, ← List.drop_drop, hbytes,
          List.take_append_drop]

theorem slotBytes_slotsOf (off : ℕ) (ps : List Part) :
    slotBytes (slotsOf off ps) = head off ps := by
  induction ps generalizing off with
  | nil => rfl
  | cons p ps ih => cases p <;> simp [slotsOf, slotBytes, head, ih]

theorem map_slotWidth_slotsOf (off : ℕ) (ps : List Part) :
    (slotsOf off ps).map slotWidth = ps.map Part.width := by
  induction ps generalizing off with
  | nil => rfl
  | cons p ps ih => cases p <;> simp [slotsOf, slotWidth, Part.width, ih]

variable {fields : List Bytes}

/-- The filled slots are those of the parts they were cut into, and the parts
cover the input from the first offset on. -/
theorem fill_eq_some {slots : List Slot}
    (h : fill bs slots = some fields) :
    ∃ ps, ps.map Part.bytes = fields ∧ slots = slotsOf ((offsets slots).headD bs.length) ps ∧
      body ps = bs.drop ((offsets slots).headD bs.length) := by
  induction slots generalizing fields with
  | nil =>
    cases h
    exact ⟨[], rfl, rfl, by simp [offsets, body]⟩
  | cons slot slots ih =>
    cases slot with
    | inl b =>
      simp only [fill] at h
      obtain ⟨rest, hrest, rfl⟩ := Option.map_eq_some_iff.mp h
      obtain ⟨ps, hps, hslots, hbody⟩ := ih hrest
      refine ⟨.fixed b :: ps, by simp [Part.bytes, hps], ?_, hbody⟩
      simp only [offsets, slotsOf]
      rw [← hslots]
    | inr off =>
      simp only [fill] at h
      split at h
      · rename_i hbounds
        obtain ⟨rest, hrest, rfl⟩ := Option.map_eq_some_iff.mp h
        obtain ⟨ps, hps, hslots, hbody⟩ := ih hrest
        have hlen : off + ((bs.drop off).take
            ((offsets slots).headD bs.length - off)).length =
              (offsets slots).headD bs.length := by
          rw [List.length_take, List.length_drop]
          omega
        refine ⟨.dynamic ((bs.drop off).take ((offsets slots).headD bs.length - off)) :: ps,
          by simp [Part.bytes, hps], ?_, ?_⟩
        · simp only [offsets, List.headD_cons, slotsOf]
          rw [hlen, ← hslots]
        · have hdrop : bs.drop ((offsets slots).headD bs.length) =
              (bs.drop off).drop ((offsets slots).headD bs.length - off) := by
            rw [List.drop_drop]
            congr 1
            omega
          simp only [offsets, List.headD_cons, body]
          rw [hbody, hdrop, List.take_append_drop]
      · cases h

theorem slices_eq_some
    (h : slices shape bs = some fields) :
    ∃ ps, ps.map Part.width = shape ∧ ps.map Part.bytes = fields ∧ assemble ps = bs := by
  unfold slices at h
  obtain ⟨slots, hslots, h⟩ := Option.bind_eq_some_iff.mp h
  split at h
  · rename_i hfirst
    obtain ⟨hshape, hbytes⟩ := readHead_eq_some hslots
    obtain ⟨ps, hps, hof, hbody⟩ := fill_eq_some h
    rw [hfirst] at hof hbody
    have hwidth : ps.map Part.width = shape := by
      rw [← hshape, hof, map_slotWidth_slotsOf]
    refine ⟨ps, hwidth, hps, ?_⟩
    have hlength : headLength ps = shapeLength shape := by
      rw [← hwidth, shapeLength_map_width]
    rw [assemble, hlength, ← slotBytes_slotsOf, ← hof, hbody, hbytes]
  · cases h

/-- The part that a field of the given width was read from. -/
def partOf : Option ℕ → Bytes → Part
  | some _, b => .fixed b
  | none, b => .dynamic b

theorem eq_zipWith_partOf (ps : List Part) :
    List.zipWith partOf (ps.map Part.width) (ps.map Part.bytes) = ps := by
  induction ps with
  | nil => rfl
  | cons p ps ih => cases p <;> simp [Part.width, Part.bytes, partOf, ih]

theorem assemble_of_slices
    (h : slices shape bs = some fields) : assemble (List.zipWith partOf shape fields) = bs := by
  obtain ⟨ps, rfl, rfl, hbs⟩ := slices_eq_some h
  rw [eq_zipWith_partOf, hbs]

theorem length_of_slices
    (h : slices shape bs = some fields) : fields.length = shape.length := by
  obtain ⟨ps, rfl, rfl, -⟩ := slices_eq_some h
  rw [List.length_map, List.length_map]

/-! ## Lists -/

theorem zipWith_partOf_replicate (items : List Bytes) :
    List.zipWith partOf (List.replicate items.length none) items = items.map Part.dynamic := by
  induction items with
  | nil => rfl
  | cons b items ih => simp [List.replicate_succ, partOf, ih]

theorem encodeList_of_decodeList {max : ℕ} {items : List Bytes}
    (h : decodeList max bs = some items) : encodeList items = bs := by
  unfold decodeList at h
  split at h
  · rename_i hnil
    cases h
    rw [hnil]
    rfl
  · obtain ⟨first, -, h⟩ := Option.bind_eq_some_iff.mp h
    split at h
    · have hlength := length_of_slices h
      rw [List.length_replicate] at hlength
      rw [encodeList, ← zipWith_partOf_replicate, hlength]
      exact assemble_of_slices h
    · cases h

theorem map_of_mapM {α β : Type*} {f : α → β} {g : β → Option α}
    (h : ∀ b a, g b = some a → f a = b) {bs : List β} {as : List α} (has : bs.mapM g = some as) :
    as.map f = bs := by
  induction bs generalizing as with
  | nil =>
    cases has
    rfl
  | cons b bs ih =>
    rw [List.mapM_cons] at has
    obtain ⟨a, ha, has⟩ := Option.bind_eq_some_iff.mp has
    obtain ⟨rest, hrest, has⟩ := Option.bind_eq_some_iff.mp has
    cases has
    rw [List.map_cons, h b a ha, ih hrest]

theorem ByteLists.encode_of_decode {n max : ℕ} {xs : ByteLists n max}
    (h : ByteLists.decode bs = some xs) : ByteLists.encode xs = bs := by
  unfold ByteLists.decode at h
  obtain ⟨items, hitems, h⟩ := Option.bind_eq_some_iff.mp h
  obtain ⟨ys, hys, hxs⟩ := Option.bind_eq_some_iff.mp h
  have hmap : ys.map VariableList.toList = items :=
    map_of_mapM (fun b a hab => VariableList.toList_of_new? hab) hys
  rw [ByteLists.encode, VariableList.toList_of_new? hxs, hmap]
  exact encodeList_of_decodeList hitems

theorem FixedBytes.toList_of_new? {n : ℕ} {a : FixedBytes n}
    (h : FixedBytes.new? bs = some a) : a.toList = bs := by
  unfold FixedBytes.new? at h
  split at h
  · cases h
    rfl
  · cases h

end Ssz
