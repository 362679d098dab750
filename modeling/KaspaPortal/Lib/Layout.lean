import KaspaPortal.Lib.Codec

/-!
# Messages laid out at fixed offsets

An encoder copies each field to a range of a buffer, and a parser cuts the same ranges
out of its input. Where the ranges follow one another, the copies leave the fields in a row and the
rest of the buffer as it was; an input holds the fields exactly when it starts with that row.
-/
namespace KaspaPortal.Lib

variable {α β ε : Type}

/-- A field of a message and the range it is copied to. -/
structure Slice where
  start : Nat
  stop : Nat
  data : Bytes

/-- `out[start..stop].copy_from_slice(data)`. The source panics when the range is not
in the buffer or has another width than the data. -/
def copySlice (out : Bytes) (s : Slice) : Bytes := out.take s.start ++ s.data ++ out.drop s.stop

/-- The slices are copied one after the other, each to its own place. -/
def writeSlices (out : Bytes) (slices : List Slice) : Bytes := slices.foldl copySlice out

/-- The fields in a row. -/
def contents (slices : List Slice) : Bytes := slices.flatMap Slice.data

/-- The ranges follow one another from `start` on and have the widths of their data. -/
def Contiguous : Nat → List Slice → Prop
  | _, [] => True
  | start, s :: rest => s.start = start ∧ s.stop = start + s.data.length ∧ Contiguous s.stop rest

/-- Each range of the input holds its data. -/
def Holds (input : Bytes) (slices : List Slice) : Prop :=
  ∀ s ∈ slices, cut input s.start s.stop = s.data

/-- The slices of a part of the message that starts at `base`. -/
def shiftSlices (base : Nat) (slices : List Slice) : List Slice :=
  slices.map fun s => { s with start := base + s.start, stop := base + s.stop }

@[simp] theorem contents_nil : contents [] = [] := rfl

@[simp] theorem contents_cons (s : Slice) (slices : List Slice) :
    contents (s :: slices) = s.data ++ contents slices := rfl

@[simp] theorem contents_append (front back : List Slice) :
    contents (front ++ back) = contents front ++ contents back := List.flatMap_append

@[simp] theorem contents_shiftSlices (base : Nat) (slices : List Slice) :
    contents (shiftSlices base slices) = contents slices := by
  simp only [contents, shiftSlices, List.flatMap_map]

/-- Two rows make one when the second starts where the first ends. -/
theorem contiguous_append {start : Nat} {front back : List Slice} :
    Contiguous start (front ++ back) ↔
      Contiguous start front ∧ Contiguous (start + (contents front).length) back := by
  induction front generalizing start with
  | nil => simp [Contiguous]
  | cons s front ih =>
    simp only [List.cons_append, Contiguous, ih, contents_cons, List.length_append]
    constructor
    · intro h
      obtain ⟨hstart, hstop, hfront, hback⟩ := h
      rw [hstop, Nat.add_assoc] at hback
      exact ⟨⟨hstart, hstop, hfront⟩, hback⟩
    · intro h
      obtain ⟨⟨hstart, hstop, hfront⟩, hback⟩ := h
      rw [← Nat.add_assoc, ← hstop] at hback
      exact ⟨hstart, hstop, hfront, hback⟩

/-- A row can be moved as a whole. -/
theorem contiguous_shiftSlices {base start : Nat} {slices : List Slice} (h : Contiguous start slices) :
    Contiguous (base + start) (shiftSlices base slices) := by
  induction slices generalizing start with
  | nil => trivial
  | cons s slices ih =>
    obtain ⟨hstart, hstop, hrest⟩ := h
    refine ⟨?_, ?_, ih hrest⟩
    · simp only [hstart]
    · simp only [hstop]
      omega

theorem holds_nil {input : Bytes} : Holds input [] := fun _ h => absurd h List.not_mem_nil

theorem holds_cons {input : Bytes} {s : Slice} {slices : List Slice} :
    Holds input (s :: slices) ↔ cut input s.start s.stop = s.data ∧ Holds input slices :=
  List.forall_mem_cons

/-- Holding a row is holding its parts. -/
theorem holds_append {input : Bytes} {front back : List Slice} :
    Holds input (front ++ back) ↔ Holds input front ∧ Holds input back := List.forall_mem_append

/-- After the copies the fields stand in a row, and what follows them is untouched. -/
theorem writeSlices_contiguous {row out : Bytes} {slices : List Slice}
    (h : Contiguous row.length slices) :
    writeSlices (row ++ out.drop row.length) slices =
      (row ++ contents slices) ++ out.drop (row ++ contents slices).length := by
  induction slices generalizing row with
  | nil => simp [writeSlices]
  | cons s slices ih =>
    obtain ⟨hstart, hstop, hrest⟩ := h
    have hcopy : copySlice (row ++ out.drop row.length) s =
        (row ++ s.data) ++ out.drop (row ++ s.data).length := by
      unfold copySlice
      rw [hstart, hstop, List.take_left, List.drop_append, List.drop_drop, List.length_append]
      simp
    rw [hstop, ← List.length_append] at hrest
    have hnext := ih hrest
    rw [← hcopy] at hnext
    rw [contents_cons, ← List.append_assoc]
    exact hnext

theorem writeSlices_append (out : Bytes) (front back : List Slice) :
    writeSlices out (front ++ back) = writeSlices (writeSlices out front) back := List.foldl_append

/-- Writing a contiguous row replaces the front of the buffer by its contents, and leaves the rest. -/
theorem writeSlices_eq {out : Bytes} {slices : List Slice} (h : Contiguous 0 slices) :
    writeSlices out slices = contents slices ++ out.drop (contents slices).length :=
  @writeSlices_contiguous [] out slices h

/-- A contiguous row is held exactly when its contents stand at its start. -/
theorem holds_iff_from {start : Nat} {input : Bytes} {slices : List Slice}
    (h : Contiguous start slices) :
    Holds input slices ↔ (input.drop start).take (contents slices).length = contents slices := by
  induction slices generalizing start with
  | nil => simp [Holds]
  | cons s slices ih =>
    obtain ⟨hstart, hstop, hrest⟩ := h
    have hhead : cut input s.start s.stop = (input.drop start).take s.data.length := by
      rw [hstart, hstop, cut, List.drop_take, Nat.add_sub_cancel_left]
    have htail := ih hrest
    rw [hstop] at htail
    rw [holds_cons, hhead, htail, contents_cons, List.length_append, List.take_add, List.drop_drop]
    constructor
    · intro hboth
      rw [hboth.1, hboth.2]
    · intro heq
      apply List.append_inj' heq
      -- Short of the head, the input would be short of the whole row.
      have hlen := congrArg List.length heq
      simp only [List.length_append, List.length_take, List.length_drop] at hlen ⊢
      omega

/-- An input holds the fields exactly when it starts with the row of them. -/
theorem holds_iff {input : Bytes} {slices : List Slice} (h : Contiguous 0 slices) :
    Holds input slices ↔ input.take (contents slices).length = contents slices :=
  holds_iff_from h

/-- Of the right length, it is that row. -/
theorem Contiguous.holds_iff_eq {input : Bytes} {slices : List Slice} (h : Contiguous 0 slices)
    {len : Nat} (hlen : (contents slices).length = len) :
    Holds input slices ∧ input.length = len ↔ input = contents slices := by
  rw [holds_iff h, hlen]
  constructor
  · intro hboth
    rw [← hboth.1, ← hboth.2, List.take_length]
  · intro heq
    rw [heq, ← hlen]
    exact ⟨List.take_length, rfl⟩

/-! ## Fields read -/

/-- `array.copy_from_slice(bytes)` for an array of zeros. The source panics when the
lengths differ. -/
def array (n : Nat) (bytes : Bytes) : FixedBytes n :=
  ⟨(bytes ++ List.replicate n 0).take n, by simp⟩

/-- `input[index]`. The source panics when there is no such byte. -/
def byteAt (input : Bytes) (index : Nat) : UInt8 := input.getD index 0

@[simp] theorem array_val {n : Nat} (a : FixedBytes n) : array n a.val = a :=
  Subtype.ext (List.take_left' a.property)

theorem val_array {n : Nat} {bytes : Bytes} (h : bytes.length = n) : (array n bytes).val = bytes :=
  List.take_left' h

/-- A cut within the bytes has the length of its range. -/
theorem length_cut {input : Bytes} {start stop : Nat} (h : stop ≤ input.length) :
    (cut input start stop).length = stop - start := by
  rw [cut, List.length_drop, List.length_take, Nat.min_eq_left h]

/-- A byte is a cut of length one. -/
theorem cut_byteAt {input : Bytes} {index : Nat} (h : index < input.length) :
    cut input index (index + 1) = [byteAt input index] := by
  rw [cut, List.drop_take, Nat.add_sub_cancel_left, List.take_one, List.head?_drop, byteAt,
    List.getD_eq_getElem?_getD, List.getElem?_eq_getElem h]
  rfl

theorem byteAt_of_cut {input : Bytes} {index : Nat} {b : UInt8}
    (h : cut input index (index + 1) = [b]) : byteAt input index = b := by
  by_cases hlt : index < input.length
  · rw [cut_byteAt hlt] at h
    exact List.singleton_inj.mp h
  · rw [cut, List.drop_eq_nil_of_le (by rw [List.length_take]; omega)] at h
    cases h

theorem byteAt_cut {input : Bytes} {start stop index : Nat} (h : start + index < stop) :
    byteAt (cut input start stop) index = byteAt input (start + index) := by
  simp only [byteAt, cut, List.getD_eq_getElem?_getD, List.getElem?_drop, List.getElem?_take_of_lt h]

/-- Neighbouring cuts make one. -/
theorem cut_append_cut {input : Bytes} {start middle stop : Nat} (h : start ≤ middle)
    (h' : middle ≤ stop) : cut input start middle ++ cut input middle stop = cut input start stop := by
  simp only [cut, List.drop_take]
  have hadd : stop - start = (middle - start) + (stop - middle) := by omega
  rw [hadd, List.take_add, List.drop_drop, Nat.add_sub_cancel' h]

/-- A prefix is a cut from the start. -/
theorem prefix_iff_cut {head input : Bytes} : head <+: input ↔ cut input 0 head.length = head := by
  rw [List.prefix_iff_eq_take, eq_comm]
  rfl

/-! ## Big-endian integers -/

/-- Big-endian numbers, by the little-endian ones read from the other end. -/
def beBytes (width value : Nat) : Bytes := (leBytes width value).reverse

def beNat (bytes : Bytes) : Nat := leNat bytes.reverse

@[simp] theorem beBytes_length (width value : Nat) : (beBytes width value).length = width := by
  rw [beBytes, List.length_reverse, leBytes_length]

theorem beNat_beBytes (width value : Nat) (h : value < 256 ^ width) :
    beNat (beBytes width value) = value := by
  rw [beNat, beBytes, List.reverse_reverse, leNat_leBytes width value h]

/-- Every string of bytes is the one its number is written as. -/
theorem beBytes_beNat (bytes : Bytes) : beBytes bytes.length (beNat bytes) = bytes := by
  rw [beBytes, beNat, ← List.length_reverse, leBytes_leNat, List.reverse_reverse]

/-! ## Tables of records -/

/-- The records of a table, each `width` long, copied one after another from `base` on. -/
def tableSlices (base width : Nat) (layout : α → List Slice) (records : List α) : List Slice :=
  (records.zipIdx.map fun entry => shiftSlices (base + entry.2 * width) (layout entry.1)).flatten

/-- The records of a table of `count` rows, read by index. -/
def tableRecords (width count : Nat) (read : Bytes → α) (table : Bytes) : List α :=
  (List.range count).map fun i => read (cut table (i * width) ((i + 1) * width))

variable {width : Nat} {layout : α → List Slice}

/-- A table's contents are those of its records, one after the other. -/
theorem contents_tableSlices (base : Nat) (records : List α) :
    contents (tableSlices base width layout records) = records.flatMap fun r => contents (layout r) := by
  unfold tableSlices
  induction records using List.reverseRecOn with
  | nil => rfl
  | append_singleton records r ih =>
    rw [List.zipIdx_append, List.map_append, List.flatten_append, contents_append, ih,
      List.flatMap_append]
    simp

/-- Records of one width make a table of a known length. -/
theorem length_flatMap_width {enc : α → Bytes} (henc : ∀ r, (enc r).length = width) (records : List α) :
    (records.flatMap enc).length = records.length * width := by
  induction records with
  | nil => simp
  | cons r records ih =>
    rw [List.flatMap_cons, List.length_append, henc, ih, List.length_cons, Nat.succ_mul, Nat.add_comm]

/-- The rows of a table lie one after the other when each is contiguous and as wide as it says. -/
theorem contiguous_tableSlices (base : Nat) (hwidth : ∀ r, (contents (layout r)).length = width)
    (hlayout : ∀ r, Contiguous 0 (layout r)) (records : List α) :
    Contiguous base (tableSlices base width layout records) := by
  induction records using List.reverseRecOn with
  | nil => trivial
  | append_singleton records r ih =>
    have hnext : Contiguous (base + records.length * width + 0)
        (shiftSlices (base + records.length * width) (layout r)) := contiguous_shiftSlices (hlayout r)
    unfold tableSlices at ih ⊢
    rw [List.zipIdx_append, List.map_append, List.flatten_append, contiguous_append]
    refine ⟨ih, ?_⟩
    have hrow : contents (tableSlices base width layout records) =
        records.flatMap fun r => contents (layout r) := contents_tableSlices base records
    unfold tableSlices at hrow
    rw [hrow, length_flatMap_width hwidth]
    simpa using hnext

/-- A table of records is read back as the records it was made of. -/
theorem tableRecords_flatMap {enc : α → Bytes} {read : Bytes → α}
    (hwidth : ∀ r, (enc r).length = width) (hread : ∀ r, read (enc r) = r) (records : List α) :
    tableRecords width records.length read (records.flatMap enc) = records := by
  induction records using List.reverseRecOn with
  | nil => rfl
  | append_singleton records r ih =>
    have hlen := length_flatMap_width hwidth records
    have hfront : ∀ i ∈ List.range records.length,
        read (cut ((records ++ [r]).flatMap enc) (i * width) ((i + 1) * width)) =
          read (cut (records.flatMap enc) (i * width) ((i + 1) * width)) := by
      intro i hi
      have hle : (i + 1) * width ≤ (records.flatMap enc).length := by
        rw [hlen]
        exact Nat.mul_le_mul_right width (List.mem_range.mp hi)
      rw [List.flatMap_append, cut, List.take_append_of_le_length hle]
      rfl
    have hlast : cut ((records ++ [r]).flatMap enc) (records.length * width)
        ((records.length + 1) * width) = enc r := by
      have hrow := slice_append (records.flatMap enc) (enc r) []
      rw [hlen, hwidth, List.append_nil, ← Nat.succ_mul] at hrow
      rw [List.flatMap_append, List.flatMap_singleton]
      exact hrow
    rw [List.length_append, List.length_singleton, tableRecords, List.range_succ, List.map_append,
      List.map_congr_left hfront, List.map_singleton, hlast, hread]
    exact congrArg (· ++ [r]) ih

/-- Written again, the records read from a table of the right length make up the table. -/
theorem flatMap_tableRecords {enc : α → Bytes} {read : Bytes → α}
    (hread : ∀ row, row.length = width → enc (read row) = row) {count : Nat} {table : Bytes}
    (htable : table.length = count * width) :
    (tableRecords width count read table).flatMap enc = table := by
  have hfront : ∀ k ≤ count, (tableRecords width k read table).flatMap enc = table.take (k * width) := by
    intro k hk
    induction k with
    | zero => simp [tableRecords]
    | succ k ih =>
      have hle : (k + 1) * width ≤ table.length := by
        rw [htable]
        exact Nat.mul_le_mul_right width hk
      have hrow : (cut table (k * width) ((k + 1) * width)).length = width := by
        rw [length_cut hle, Nat.succ_mul, Nat.add_sub_cancel_left]
      have hprev := ih (Nat.le_of_succ_le hk)
      rw [tableRecords] at hprev ⊢
      rw [List.range_succ, List.map_append, List.flatMap_append, hprev, List.map_singleton,
        List.flatMap_singleton, hread _ hrow, cut, List.drop_take, Nat.succ_mul,
        Nat.add_sub_cancel_left, ← List.take_add]
  rw [hfront count le_rfl, ← htable, List.take_length]

theorem length_tableRecords (count : Nat) (read : Bytes → α) (table : Bytes) :
    (tableRecords width count read table).length = count := by
  rw [tableRecords, List.length_map, List.length_range]

/-- Reading the n-th record cuts out the n-th row. -/
theorem getElem?_tableRecords (count : Nat) (read : Bytes → α) (table : Bytes) (index : Nat) :
    (tableRecords width count read table)[index]? =
      if index < count then some (read (cut table (index * width) ((index + 1) * width))) else none := by
  rw [tableRecords, List.getElem?_map]
  split
  · rename_i h
    rw [List.getElem?_range h]
    rfl
  · rename_i h
    rw [List.getElem?_eq_none (by rw [List.length_range]; omega)]
    rfl

/-! ## Encoders into a buffer -/

/-- The encoder accepts `valid` and copies `wire` to the front of a buffer that has room. -/
def Encodes (encode : Bytes → Except ε (Nat × Bytes)) (valid : Prop) (wire : Bytes) : Prop :=
  ∀ out r, encode out = .ok r ↔
    valid ∧ wire.length ≤ out.length ∧ r = (wire.length, wire ++ out.drop wire.length)

/-- The parser undoes the encoder on all it accepts, and the encoder the parser, where
`fields` are the encoder's arguments that a parsed message holds. -/
structure RoundTrips (encode : α → Bytes → Except ε (Nat × Bytes)) (parse : Bytes → Except ε β)
    (fields : β → α) : Prop where
  parse_encode : ∀ message out count out', encode message out = .ok (count, out') →
    ∃ parsed, parse (out'.take count) = .ok parsed ∧ fields parsed = message
  encode_parse : ∀ input parsed out, parse input = .ok parsed → input.length ≤ out.length →
    ∃ out', encode (fields parsed) out = .ok (input.length, out') ∧ out'.take input.length = input

/-- What an encoder wrote is the wire form, whatever was in the buffer before. -/
theorem Encodes.take_eq {encode : Bytes → Except ε (Nat × Bytes)} {valid : Prop} {wire : Bytes}
    (h : Encodes encode valid wire) {out out' : Bytes} {count : Nat}
    (henc : encode out = .ok (count, out')) : valid ∧ out'.take count = wire := by
  obtain ⟨hvalid, _, hr⟩ := (h out (count, out')).mp henc
  obtain ⟨hcount, hout⟩ := Prod.mk.inj hr
  refine ⟨hvalid, ?_⟩
  rw [hcount, hout, List.take_left]

/-- A valid value is written into every buffer with room for it. -/
theorem Encodes.succeeds {encode : Bytes → Except ε (Nat × Bytes)} {valid : Prop} {wire : Bytes}
    (h : Encodes encode valid wire) (hvalid : valid) {out : Bytes} (hroom : wire.length ≤ out.length) :
    ∃ out', encode out = .ok (wire.length, out') ∧ out'.take wire.length = wire :=
  ⟨_, (h out _).mpr ⟨hvalid, hroom, rfl⟩, List.take_left⟩

/-- Where the parser accepts what the encoder writes and nothing else, both round trips follow. -/
theorem RoundTrips.of_wire {encode : α → Bytes → Except ε (Nat × Bytes)} {parse : Bytes → Except ε β}
    {fields : β → α} {valid : α → Prop} {wire : α → Bytes}
    (hencode : ∀ m, Encodes (encode m) (valid m) (wire m))
    (hsound : ∀ input b, parse input = .ok b → valid (fields b) ∧ input = wire (fields b))
    (hcomplete : ∀ m, valid m → ∃ b, parse (wire m) = .ok b ∧ fields b = m) :
    RoundTrips encode parse fields where
  parse_encode := by
    intro message out count out' henc
    obtain ⟨hvalid, hwire⟩ := (hencode message).take_eq henc
    rw [hwire]
    exact hcomplete message hvalid
  encode_parse := by
    intro input parsed out hok hroom
    obtain ⟨hvalid, hwire⟩ := hsound input parsed hok
    have hout := (hencode (fields parsed)).succeeds hvalid (hwire ▸ hroom)
    rwa [← hwire] at hout

/-- A parsed message that is what the encoder takes. -/
theorem RoundTrips.of_iff {encode : α → Bytes → Except ε (Nat × Bytes)} {parse : Bytes → Except ε α}
    {valid : α → Prop} {wire : α → Bytes} (hencode : ∀ m, Encodes (encode m) (valid m) (wire m))
    (hparse : ∀ input m, parse input = .ok m ↔ valid m ∧ input = wire m) : RoundTrips encode parse id :=
  .of_wire hencode (fun input m => (hparse input m).mp) fun m hvalid =>
    ⟨m, (hparse _ m).mpr ⟨hvalid, rfl⟩, rfl⟩

/-- An encoder that checks the message and the room, in whichever order, and then copies. -/
theorem encodes_writeSlices {encode : Bytes → Except ε (Nat × Bytes)} {valid : Prop} {count : Nat}
    {slices : List Slice} (hslices : Contiguous 0 slices) (hcount : (contents slices).length = count)
    (h : ∀ out r, encode out = .ok r ↔ valid ∧ count ≤ out.length ∧
      r = (count, writeSlices out slices)) : Encodes encode valid (contents slices) := by
  intro out r
  rw [h, writeSlices_eq hslices, hcount]

end KaspaPortal.Lib
