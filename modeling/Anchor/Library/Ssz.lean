import Mathlib

/-!
# Simple serialize: offset tables, containers and lists

A container is written as a head followed by a body.  A field of fixed length
stands in the head itself; a field of variable length leaves a four-byte offset
there and its bytes in the body.  A list of variable-length items is the same
layout with only offsets in its head.  The decoder registers the fields in
order, checks the offsets and cuts the body between them; the main result is
that it cuts back exactly the parts that were assembled.
-/

namespace Ssz

abbrev Bytes := List UInt8

/-! ## Little-endian integers -/

/-- The `w` low bytes of a number, least significant first. -/
def leBytes : ℕ → ℕ → Bytes
  | 0, _ => []
  | w + 1, n => UInt8.ofNat n :: leBytes w (n / 256)

def ofLe : Bytes → ℕ
  | [] => 0
  | b :: bs => b.toNat + 256 * ofLe bs

@[simp] theorem length_leBytes (w n : ℕ) : (leBytes w n).length = w := by
  induction w generalizing n with
  | zero => rfl
  | succ w ih => simp [leBytes, ih]

theorem ofLe_leBytes {w n : ℕ} (h : n < 256 ^ w) : ofLe (leBytes w n) = n := by
  induction w generalizing n with
  | zero =>
    have hn : n = 0 := by simpa using h
    simp [leBytes, ofLe, hn]
  | succ w ih =>
    have hq : n / 256 < 256 ^ w := by
      apply Nat.div_lt_of_lt_mul
      rwa [← pow_succ']
    simp only [leBytes, ofLe, ih hq, UInt8.toNat_ofNat']
    omega

def encodeU64 (n : UInt64) : Bytes := leBytes 8 n.toNat

/-- A `u64` is read from exactly eight bytes. -/
def decodeU64 (bs : Bytes) : Option UInt64 :=
  if bs.length = 8 then some (UInt64.ofNat (ofLe bs)) else none

@[simp] theorem length_encodeU64 (n : UInt64) : (encodeU64 n).length = 8 :=
  length_leBytes 8 n.toNat

@[simp] theorem decodeU64_encodeU64 (n : UInt64) : decodeU64 (encodeU64 n) = some n := by
  have hn : n.toNat < 256 ^ 8 := n.toNat_lt
  rw [decodeU64, if_pos (length_encodeU64 n), encodeU64, ofLe_leBytes hn]
  simp

/-! ## Writing a container -/

/-- One field of a container: in the head when its type has a fixed length,
behind an offset otherwise. -/
inductive Part where
  | fixed (bytes : Bytes)
  | dynamic (bytes : Bytes)

def Part.bytes : Part → Bytes
  | .fixed b => b
  | .dynamic b => b

/-- The width the decoder expects in the head, when the field is of fixed length. -/
def Part.width : Part → Option ℕ
  | .fixed b => some b.length
  | .dynamic _ => none

def headLength : List Part → ℕ
  | [] => 0
  | .fixed b :: ps => b.length + headLength ps
  | .dynamic _ :: ps => 4 + headLength ps

/-- The head, when the next body byte is written at offset `off`. -/
def head : ℕ → List Part → Bytes
  | _, [] => []
  | off, .fixed b :: ps => b ++ head off ps
  | off, .dynamic b :: ps => leBytes 4 off ++ head (off + b.length) ps

def body : List Part → Bytes
  | [] => []
  | .fixed _ :: ps => body ps
  | .dynamic b :: ps => b ++ body ps

def assemble (ps : List Part) : Bytes := head (headLength ps) ps ++ body ps

@[simp] theorem length_head (off : ℕ) (ps : List Part) :
    (head off ps).length = headLength ps := by
  induction ps generalizing off with
  | nil => rfl
  | cons p ps ih => cases p <;> simp [head, headLength, ih]

theorem length_assemble (ps : List Part) :
    (assemble ps).length = headLength ps + (body ps).length := by
  simp [assemble]

/-! ## Reading it back -/

abbrev Shape := List (Option ℕ)

def shapeLength : Shape → ℕ
  | [] => 0
  | some w :: s => w + shapeLength s
  | none :: s => 4 + shapeLength s

/-- A field as registered from the head: its own bytes, or where they start. -/
abbrev Slot := Bytes ⊕ ℕ

def readOffset (bs : Bytes) : Option ℕ :=
  if bs.length < 4 then none else some (ofLe (bs.take 4))

def readHead : Shape → Bytes → Option (List Slot)
  | [], _ => some []
  | some w :: s, bs =>
    if bs.length < w then none else (readHead s (bs.drop w)).map (.inl (bs.take w) :: ·)
  | none :: s, bs =>
    (readOffset bs).bind fun off => (readHead s (bs.drop 4)).map (.inr off :: ·)

def offsets : List Slot → List ℕ
  | [] => []
  | .inl _ :: s => offsets s
  | .inr off :: s => off :: offsets s

/-- Cut the registered fields out of the whole input: a variable-length field
ends where the next one starts, the last one at the end of the input. -/
def fill (bs : Bytes) : List Slot → Option (List Bytes)
  | [] => some []
  | .inl b :: s => (fill bs s).map (b :: ·)
  | .inr off :: s =>
    let stop := (offsets s).headD bs.length
    if off ≤ stop ∧ stop ≤ bs.length then
      (fill bs s).map ((bs.drop off).take (stop - off) :: ·)
    else none

/-- The byte ranges of the fields.  The first offset must point right behind the
head, and an input without offsets must end there. -/
def slices (shape : Shape) (bs : Bytes) : Option (List Bytes) :=
  (readHead shape bs).bind fun slots =>
    if (offsets slots).headD bs.length = shapeLength shape then fill bs slots else none

/-- The slots that reading back the head of `ps` must give. -/
def slotsOf : ℕ → List Part → List Slot
  | _, [] => []
  | off, .fixed b :: ps => .inl b :: slotsOf off ps
  | off, .dynamic b :: ps => .inr off :: slotsOf (off + b.length) ps

theorem shapeLength_map_width (ps : List Part) :
    shapeLength (ps.map Part.width) = headLength ps := by
  induction ps with
  | nil => rfl
  | cons p ps ih => cases p <;> simp [Part.width, shapeLength, headLength, ih]

theorem headD_offsets_slotsOf (off : ℕ) (ps : List Part) :
    (offsets (slotsOf off ps)).headD (off + (body ps).length) = off := by
  induction ps with
  | nil => rfl
  | cons p ps ih =>
    cases p with
    | fixed b => simpa [slotsOf, offsets, body] using ih
    | dynamic b => rfl

theorem readOffset_leBytes {off : ℕ} (h : off < 256 ^ 4) (rest : Bytes) :
    readOffset (leBytes 4 off ++ rest) = some off := by
  have hlen : ¬ (leBytes 4 off ++ rest).length < 4 := by simp
  have htake : (leBytes 4 off ++ rest).take 4 = leBytes 4 off := by
    rw [List.take_append_of_le_length (by simp), List.take_of_length_le (by simp)]
  rw [readOffset, if_neg hlen, htake, ofLe_leBytes h]

theorem readHead_head {off : ℕ} {ps : List Part} (rest : Bytes)
    (h : off + (body ps).length < 256 ^ 4) :
    readHead (ps.map Part.width) (head off ps ++ rest) = some (slotsOf off ps) := by
  induction ps generalizing off with
  | nil => rfl
  | cons p ps ih =>
    cases p with
    | fixed b =>
      have hlen : ¬ (b ++ (head off ps ++ rest)).length < b.length := by simp
      simp only [List.map_cons, Part.width, head, List.append_assoc, readHead, if_neg hlen,
        List.drop_left, List.take_left, slotsOf]
      rw [ih (by simpa [body] using h)]
      rfl
    | dynamic b =>
      have hb : off + b.length + (body ps).length < 256 ^ 4 := by
        simpa [body, Nat.add_assoc] using h
      have hdrop : (leBytes 4 off ++ (head (off + b.length) ps ++ rest)).drop 4 =
          head (off + b.length) ps ++ rest := by
        rw [List.drop_append_of_le_length (by simp), List.drop_of_length_le (by simp),
          List.nil_append]
      simp only [List.map_cons, Part.width, head, List.append_assoc, readHead, slotsOf]
      rw [readOffset_leBytes (by omega), Option.bind_some, hdrop, ih hb]
      rfl

theorem fill_slotsOf (pre : Bytes) (ps : List Part) :
    fill (pre ++ body ps) (slotsOf pre.length ps) = some (ps.map Part.bytes) := by
  induction ps generalizing pre with
  | nil => rfl
  | cons p ps ih =>
    cases p with
    | fixed b => simp [body, slotsOf, fill, ih, Part.bytes]
    | dynamic b =>
      have hsplit : pre ++ body (.dynamic b :: ps) = (pre ++ b) ++ body ps := by
        simp [body]
      have hstop : (offsets (slotsOf (pre.length + b.length) ps)).headD
          ((pre ++ b) ++ body ps).length = pre.length + b.length := by
        have h := headD_offsets_slotsOf (pre.length + b.length) ps
        simpa [Nat.add_assoc] using h
      have hcut : (((pre ++ b) ++ body ps).drop pre.length).take
          (pre.length + b.length - pre.length) = b := by
        simp
      have hrest := ih (pre ++ b)
      rw [List.length_append] at hrest
      rw [hsplit, slotsOf, fill]
      simp only [hstop, hcut, hrest]
      rw [if_pos (by constructor <;> simp)]
      rfl

theorem slices_assemble {ps : List Part} (h : headLength ps + (body ps).length < 256 ^ 4) :
    slices (ps.map Part.width) (assemble ps) = some (ps.map Part.bytes) := by
  have hfirst : (offsets (slotsOf (headLength ps) ps)).headD (assemble ps).length =
      headLength ps := by
    rw [length_assemble]
    exact headD_offsets_slotsOf (headLength ps) ps
  have hfill := fill_slotsOf (head (headLength ps) ps) ps
  rw [length_head] at hfill
  rw [slices, assemble, readHead_head (body ps) h, Option.bind_some]
  rw [assemble] at hfirst
  rw [hfirst, shapeLength_map_width, if_pos rfl, hfill]

/-! ## Lists -/

structure VariableList (α : Type*) (n : ℕ) where
  toList : List α
  length_le : toList.length ≤ n
deriving DecidableEq

namespace VariableList

variable {α : Type*} {n : ℕ}

@[ext] theorem ext {a b : VariableList α n} (h : a.toList = b.toList) : a = b := by
  cases a
  cases b
  cases h
  rfl

def new? (xs : List α) : Option (VariableList α n) :=
  if h : xs.length ≤ n then some ⟨xs, h⟩ else none

def empty : VariableList α n := ⟨[], Nat.zero_le n⟩

@[simp] theorem toList_empty : (empty : VariableList α n).toList = [] := rfl

@[simp] theorem new?_toList (a : VariableList α n) : new? a.toList = some a :=
  dif_pos a.length_le

theorem toList_of_new? {xs : List α} {a : VariableList α n} (h : new? xs = some a) :
    a.toList = xs := by
  unfold new? at h
  split at h
  · cases h
    rfl
  · cases h

end VariableList

structure FixedBytes (n : ℕ) where
  toList : Bytes
  length_eq : toList.length = n
deriving DecidableEq

namespace FixedBytes

variable {n : ℕ}

@[ext] theorem ext {a b : FixedBytes n} (h : a.toList = b.toList) : a = b := by
  cases a
  cases b
  cases h
  rfl

def new? (bs : Bytes) : Option (FixedBytes n) :=
  if h : bs.length = n then some ⟨bs, h⟩ else none

@[simp] theorem new?_toList (a : FixedBytes n) : new? a.toList = some a :=
  dif_pos a.length_eq

end FixedBytes

/-- A list of variable-length items has the layout of a container whose fields
are all behind offsets. -/
def encodeList (items : List Bytes) : Bytes := assemble (items.map .dynamic)

/-- The number of items follows from the first offset. -/
def decodeList (max : ℕ) (bs : Bytes) : Option (List Bytes) :=
  if bs = [] then some [] else
    (readOffset bs).bind fun first =>
      if first % 4 = 0 ∧ 4 ≤ first ∧ first ≤ bs.length ∧ first / 4 ≤ max then
        slices (List.replicate (first / 4) none) bs
      else none

theorem headLength_dynamic (items : List Bytes) :
    headLength (items.map .dynamic) = 4 * items.length := by
  induction items with
  | nil => rfl
  | cons b items ih =>
    simp only [List.map_cons, headLength, ih, List.length_cons]
    omega

theorem body_dynamic (items : List Bytes) : body (items.map .dynamic) = items.flatten := by
  induction items with
  | nil => rfl
  | cons b items ih => simp [body, ih]

theorem length_encodeList (items : List Bytes) :
    (encodeList items).length = 4 * items.length + items.flatten.length := by
  rw [encodeList, length_assemble, headLength_dynamic, body_dynamic]

theorem decodeList_encodeList {max : ℕ} {items : List Bytes} (hmax : items.length ≤ max)
    (hlen : (encodeList items).length < 256 ^ 4) :
    decodeList max (encodeList items) = some items := by
  cases items with
  | nil => rfl
  | cons b items =>
    have hlength := length_encodeList (b :: items)
    have hne : encodeList (b :: items) ≠ [] := by
      intro h
      rw [h] at hlength
      simp only [List.length_nil, List.length_cons] at hlength
      omega
    have hfirst : readOffset (encodeList (b :: items)) = some (4 * (b :: items).length) := by
      have hhead : encodeList (b :: items) = leBytes 4 (4 * (b :: items).length) ++
          (head (4 * (b :: items).length + b.length) (items.map .dynamic) ++
            body ((b :: items).map .dynamic)) := by
        rw [encodeList, assemble, headLength_dynamic]
        simp [head]
      rw [hhead]
      exact readOffset_leBytes (by omega) _
    have hcount : 4 * (b :: items).length / 4 = (b :: items).length := by omega
    have hshape : List.replicate (b :: items).length none =
        ((b :: items).map Part.dynamic).map Part.width := by
      rw [List.map_map]
      exact (List.map_const' ..).symm
    have hparts : ((b :: items).map Part.dynamic).map Part.bytes = b :: items := by
      rw [List.map_map]
      exact List.map_id _
    rw [decodeList, if_neg hne, hfirst, Option.bind_some, hcount, if_pos]
    · rw [hshape, encodeList, slices_assemble, hparts]
      rw [encodeList, length_assemble] at hlen
      exact hlen
    · simp only [List.length_cons] at hmax hlength ⊢
      omega

theorem mapM_map_of_forall {α β : Type*} {f : α → β} {g : β → Option α} {xs : List α}
    (h : ∀ a ∈ xs, g (f a) = some a) : (xs.map f).mapM g = some xs := by
  induction xs with
  | nil => rfl
  | cons x xs ih =>
    have hrest := ih fun a ha => h a (List.mem_cons_of_mem _ ha)
    simp [List.mapM_cons, h x (by simp), hrest]

theorem mapM_map_of_leftInverse {α β : Type*} {f : α → β} {g : β → Option α}
    (h : ∀ a, g (f a) = some a) (xs : List α) : (xs.map f).mapM g = some xs :=
  mapM_map_of_forall fun a _ => h a

abbrev ByteLists (n max : ℕ) := VariableList (VariableList UInt8 n) max

namespace ByteLists

variable {n max : ℕ}

def encode (xs : ByteLists n max) : Bytes := encodeList (xs.toList.map VariableList.toList)

def decode (bs : Bytes) : Option (ByteLists n max) :=
  (decodeList max bs).bind fun items => (items.mapM VariableList.new?).bind VariableList.new?

theorem length_flatten_le {items : List Bytes} {n : ℕ} (h : ∀ b ∈ items, b.length ≤ n) :
    items.flatten.length ≤ items.length * n := by
  induction items with
  | nil => simp
  | cons b items ih =>
    have hb := h b (by simp)
    have hrest := ih fun c hc => h c (List.mem_cons_of_mem _ hc)
    simp only [List.flatten_cons, List.length_append, List.length_cons, Nat.add_mul]
    omega

theorem length_encode_le (xs : ByteLists n max) : (encode xs).length ≤ max * (4 + n) := by
  have hbound : ∀ b ∈ xs.toList.map VariableList.toList, b.length ≤ n := by
    intro b hb
    obtain ⟨x, _, rfl⟩ := List.mem_map.mp hb
    exact x.length_le
  have hflat := length_flatten_le hbound
  have hmax := Nat.mul_le_mul_right (4 + n) xs.length_le
  rw [encode, length_encodeList]
  rw [List.length_map] at hflat ⊢
  rw [Nat.mul_add] at hmax
  omega

theorem decode_encode {xs : ByteLists n max} (h : (encode xs).length < 256 ^ 4) :
    decode (encode xs) = some xs := by
  have hmax : (xs.toList.map VariableList.toList).length ≤ max := by
    simpa using xs.length_le
  rw [decode, encode, decodeList_encodeList hmax h, Option.bind_some,
    mapM_map_of_leftInverse VariableList.new?_toList, Option.bind_some,
    VariableList.new?_toList]

end ByteLists

/-! ## Items of fixed length -/

/-- Cut into runs of `w` bytes; the last run may be shorter. -/
def chunks (w : ℕ) : ℕ → Bytes → List Bytes
  | 0, _ => []
  | k + 1, bs => if bs = [] then [] else bs.take w :: chunks w k (bs.drop w)

def decodeU64s (max : ℕ) (bs : Bytes) : Option (List UInt64) :=
  if bs.length / 8 ≤ max then (chunks 8 bs.length bs).mapM decodeU64 else none

section FixedLength

variable {α : Type*} {f : α → Bytes} {w : ℕ}

theorem chunks_flatMap (hw : 0 < w) (hf : ∀ x, (f x).length = w) (xs : List α) {k : ℕ}
    (h : xs.length ≤ k) : chunks w k (xs.flatMap f) = xs.map f := by
  induction xs generalizing k with
  | nil => cases k <;> rfl
  | cons x xs ih =>
    obtain ⟨k, rfl⟩ : ∃ j, k = j + 1 := ⟨k - 1, by simp at h; omega⟩
    have hne : f x ++ xs.flatMap f ≠ [] := by
      intro h0
      have := congrArg List.length h0
      simp only [List.length_append, hf x, List.length_nil] at this
      omega
    have htake : (f x ++ xs.flatMap f).take w = f x := by
      rw [List.take_append_of_le_length (hf x).ge, List.take_of_length_le (hf x).le]
    have hdrop : (f x ++ xs.flatMap f).drop w = xs.flatMap f := by
      rw [List.drop_append_of_le_length (hf x).ge, List.drop_of_length_le (hf x).le,
        List.nil_append]
    rw [List.flatMap_cons, chunks, if_neg hne, htake, hdrop, List.map_cons,
      ih (by simpa using h)]

theorem length_flatMap (hf : ∀ x, (f x).length = w) (xs : List α) :
    (xs.flatMap f).length = w * xs.length := by
  induction xs with
  | nil => rfl
  | cons x xs ih => simp only [List.flatMap_cons, List.length_append, hf x, ih, List.length_cons,
      Nat.mul_succ, Nat.add_comm]

end FixedLength

theorem length_flatMap_encodeU64 (xs : List UInt64) :
    (xs.flatMap encodeU64).length = 8 * xs.length := length_flatMap length_encodeU64 xs

theorem decodeU64s_flatMap {max : ℕ} {xs : List UInt64} (h : xs.length ≤ max) :
    decodeU64s max (xs.flatMap encodeU64) = some xs := by
  have hlen := length_flatMap_encodeU64 xs
  rw [decodeU64s, if_pos (by omega), chunks_flatMap (by decide) length_encodeU64 xs (by omega)]
  exact mapM_map_of_leftInverse decodeU64_encodeU64 xs

end Ssz
