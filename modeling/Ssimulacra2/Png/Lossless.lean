/-
  File:      Ssimulacra2/Png/Lossless.lean
  Subject:   A rewritten image decodes to the samples it was rewritten from.

  The planes of the image are repacked pixel by pixel and unpacked again; every byte comes back
  from its sample (`toByte_byteSample`).
-/
import Ssimulacra2.Bytes
import Ssimulacra2.Png.Normalize

namespace Ssimulacra2

open Lists

variable {F : Type} [F32 F]

/-! ## 1. The encoder -/

/-- `b"IHDR"`. -/
def ihdrName : List UInt8 := [73, 72, 68, 82]

/-- `b"IDAT"`. -/
def idatName : List UInt8 := [73, 68, 65, 84]

/-- **What the encoder promises**: what it wrote decodes to the same bytes, and its file holds an
    `IHDR`, `IDAT`s and an `IEND`. -/
structure PngCrate.Lossless (png : PngCrate) : Prop where
  info : ∀ w h rgb bytes, rgb.length = 3 * (w * h) → png.encode w h rgb = (bytes, none) →
    png.readInfo bytes = .ok (w, h)
  frame : ∀ w h rgb bytes, rgb.length = 3 * (w * h) → png.encode w h rgb = (bytes, none) →
    png.nextFrame bytes = .ok ⟨w, h, .eight, .rgb, rgb⟩
  plain : ∀ w h rgb bytes, rgb.length = 3 * (w * h) → png.encode w h rgb = (bytes, none) →
    ∀ c ∈ chunks (bytes.data.drop 8), c.type = ihdrName ∨ c.type = idatName ∨ c.type = iendName

/-- A file without other chunks passes every policy. -/
theorem profilePolicy_plain {cs : List Chunk} (tolerate : Bool)
    (h : ∀ c ∈ cs, c.type = ihdrName ∨ c.type = idatName ∨ c.type = iendName) :
    profilePolicy tolerate cs = none := by
  have hno (p : Profile) : ¬hasChunk p.bytes cs = true := by
    unfold hasChunk
    rw [List.any_eq_true]
    rintro ⟨c, hc, hp⟩
    have hp := of_decide_eq_true hp
    rcases h c hc with e | e | e
    · rw [e] at hp
      cases p <;> exact absurd hp (by decide)
    · rw [e] at hp
      cases p <;> exact absurd hp (by decide)
    · exact bytes_ne_iend p (hp.symm.trans e)
  unfold profilePolicy
  rw [if_neg (hno _), if_neg (hno _), if_neg (hno _)]
  split_ifs <;> rfl

/-! ## 2. Repacking -/

section Repack

variable (B : Binary32 F)

include B

/-- **The byte comes back.** -/
theorem toByte_byteSample (b : UInt8) : toByte (byteSample b : F) = b := by
  have hb := b.toNat_lt
  unfold toByte byteSample
  rw [B.toUsize_byteValue hb, min_eq_left (by omega), UInt8.ofNat_toNat]

omit B in
/-- The three planes of `bs`, interleaved. -/
def interleave (bs : List UInt8) (n : Nat) : List UInt8 :=
  (List.range n).flatMap fun i => [bs.getD i 0, bs.getD (n + i) 0, bs.getD (2 * n + i) 0]

omit B in
theorem interleave_length (bs : List UInt8) (n : Nat) : (interleave bs n).length = 3 * n := by
  unfold interleave
  rw [length_flatMap (m := 3) (fun _ => rfl), List.length_range]

/-- The loop of the command interleaves the bytes. -/
theorem rgbBytes_interleave {dec : Decoded F} {bs : List UInt8} (hs : dec.srgb = bs.map byteSample)
    (hl : bs.length = 3 * (dec.w * dec.h)) :
    rgbBytes dec = some (interleave bs (dec.w * dec.h)) := by
  generalize hn : dec.w * dec.h = n at hl
  have hread {j : Nat} (hj : j < 3 * n) : dec.srgb[j]? = some (byteSample (bs.getD j 0)) := by
    have hj' : j < bs.length := by omega
    rw [hs, List.getElem?_map, List.getD_eq_getElem?_getD, List.getElem?_eq_getElem hj']
    rfl
  have hpixel (i : Nat) (hi : i < n) : rgbPixel dec n i =
      some [bs.getD i 0, bs.getD (n + i) 0, bs.getD (2 * n + i) 0] := by
    unfold rgbPixel
    rw [hread (by omega), hread (by omega), hread (by omega)]
    simp only [Option.bind_eq_bind, Option.bind_some, toByte_byteSample B]
  have hall (is : List Nat) (his : ∀ i ∈ is, i < n) : is.mapM (rgbPixel dec n) =
      some (is.map fun i => [bs.getD i 0, bs.getD (n + i) 0, bs.getD (2 * n + i) 0]) := by
    induction is with
    | nil => rfl
    | cons i is ih =>
      rw [List.mapM_cons, hpixel i (his i List.mem_cons_self),
        ih fun j hj => his j (List.mem_cons_of_mem _ hj)]
      rfl
  unfold rgbBytes interleave
  rw [hn, hall _ fun i hi => List.mem_range.mp hi, Option.map_some, List.flatMap_def]

omit B in
/-- Unpacking a plane of the interleaved bytes. -/
theorem bytePlane_interleave {bs : List UInt8} {n c : Nat} (hl : bs.length = 3 * n) (hc : c < 3) :
    bytePlane (interleave bs n) 3 c n = some ((bs.drop (c * n)).take n) := by
  have hcn : c * n + n ≤ 3 * n := by
    have : (c + 1) * n ≤ 3 * n := Nat.mul_le_mul_right n hc
    rw [Nat.succ_mul] at this
    exact this
  have hget (i : Nat) (hi : i < n) : (interleave bs n)[3 * i + c]? = some (bs.getD (c * n + i) 0) := by
    unfold interleave
    rw [flatMap_getElem (m := 3) (fun _ => rfl) _ i hc, List.getElem?_range hi, Option.bind_some]
    interval_cases c
    · rw [Nat.zero_mul, Nat.zero_add]
      rfl
    · rw [Nat.one_mul]
      rfl
    · rfl
  have hall (is : List Nat) (his : ∀ i ∈ is, i < n) :
      (is.mapM fun i => (interleave bs n)[3 * i + c]?) =
        some (is.map fun i => bs.getD (c * n + i) 0) := by
    induction is with
    | nil => rfl
    | cons i is ih =>
      rw [List.mapM_cons, hget i (his i List.mem_cons_self),
        ih fun j hj => his j (List.mem_cons_of_mem _ hj)]
      rfl
  unfold bytePlane
  rw [hall _ fun i hi => List.mem_range.mp hi]
  refine congrArg some (List.ext_getElem? fun i => ?_)
  rw [List.getElem?_map]
  rcases Nat.lt_or_ge i n with hi | hi
  · have hj : c * n + i < bs.length := by omega
    rw [List.getElem?_range hi, Option.map_some, List.getElem?_take_of_lt hi, List.getElem?_drop,
      List.getD_eq_getElem?_getD, List.getElem?_eq_getElem hj]
    rfl
  · rw [List.getElem?_eq_none (by rw [List.length_range]; exact hi), Option.map_none,
      List.getElem?_eq_none (by rw [List.length_take]; omega)]

omit B in
/-- Three planes one after the other. -/
theorem planes_append {bs : List UInt8} {n : Nat} (hl : bs.length = 3 * n) :
    (bs.drop (0 * n)).take n ++ (bs.drop (1 * n)).take n ++ (bs.drop (2 * n)).take n = bs := by
  have h2 : (bs.drop (2 * n)).take n = bs.drop (2 * n) :=
    List.take_of_length_le (by rw [List.length_drop]; omega)
  have hdrop : bs.drop (2 * n) = (bs.drop (1 * n)).drop n := by
    rw [List.drop_drop]
    congr 1
    omega
  have hdrop1 : bs.drop (1 * n) = (bs.drop (0 * n)).drop n := by
    rw [List.drop_drop]
    congr 1
    omega
  rw [h2, List.append_assoc, hdrop, List.take_append_drop, hdrop1, List.take_append_drop,
    Nat.zero_mul, List.drop_zero]

/-- **A rewritten image decodes to the samples of the image it was rewritten from**, without
    alpha. -/
theorem Rewrites.reread {E : NormEnv F} (hl : E.png.Lossless) {disk : Disk} {inp : String}
    {dec : Decoded F} {bytes : ByteSlice} (h : Rewrites E disk inp dec bytes) :
    decodeBytes E.png bytes false = .ok (⟨dec.w, dec.h, dec.srgb, none⟩ : Decoded F) := by
  obtain ⟨hdec, -, rgb, hrgb, henc⟩ := h
  obtain ⟨file, -, hdec⟩ := except_bind_ok.mp hdec
  obtain ⟨-, of, -, -, hof⟩ := decodeBytes_ok hdec
  obtain ⟨bs, hs, hlen⟩ := hof.samples
  rw [rgbBytes_interleave B hs hlen] at hrgb
  cases hrgb
  have hint := interleave_length bs (dec.w * dec.h)
  rw [decodeBytes_frame false (profilePolicy_plain false (hl.plain _ _ _ _ hint henc))
    (hl.info _ _ _ _ hint henc) (hl.frame _ _ _ _ hint henc) rfl,
    frameSamples_rgb (bytePlane_interleave hlen (show 0 < 3 by decide))
      (bytePlane_interleave hlen (show 1 < 3 by decide))
      (bytePlane_interleave hlen (show 2 < 3 by decide)), planes_append hlen, hs]

/-- The normal form of an image that was decoded. -/
theorem normalForm_interleave {E : NormEnv F} {disk : Disk} {inp : String} {file : ByteSlice}
    {dec : Decoded F} {bs : List UInt8} (hfile : disk (E.host.resolve inp) = some file)
    (hdec : decodeBytes E.png file true = .ok dec) (hop : rewritable E.isOne dec = true)
    (hs : dec.srgb = bs.map byteSample) (hlen : bs.length = 3 * (dec.w * dec.h)) :
    normalForm E disk inp = some (E.png.encode dec.w dec.h (interleave bs (dec.w * dec.h))) := by
  have hingest : (decodePngIngest E.png E.host disk inp : Except Fault (Decoded F)) = .ok dec := by
    unfold decodePngIngest decodePngOpts Disk.read
    rw [hfile]
    exact hdec
  unfold normalForm
  rw [hingest]
  dsimp only
  rw [if_pos hop, rgbBytes_interleave B hs hlen, Option.map_some]

end Repack

/-! ## 3. A crate -/

/-- A crate that knows the files of a table, and encodes a picture as the file of its frame. -/
def tableCrate (table : List (ByteSlice × Frame)) : PngCrate where
  readInfo bytes :=
    match table.find? fun e => e.1.data = bytes.data with
    | some e => .ok (e.2.width, e.2.height)
    | none => .error "Invalid PNG signature."
  nextFrame bytes :=
    match table.find? fun e => e.1.data = bytes.data with
    | some e => .ok e.2
    | none => .error "Invalid PNG signature."
  encode w h rgb :=
    match table.find? fun e => e.2 = ⟨w, h, .eight, .rgb, rgb⟩ with
    | some e => (e.1, none)
    | none => (⟨[], by decide⟩, some "data: no such picture")

/-- A table without a file twice and with plain RGB files is lossless. -/
theorem tableCrate_lossless {table : List (ByteSlice × Frame)}
    (hd : table.Pairwise fun a b => a.1.data ≠ b.1.data)
    (hp : ∀ e ∈ table, e.2.colorType = .rgb → ∀ c ∈ chunks (e.1.data.drop 8),
      c.type = ihdrName ∨ c.type = idatName ∨ c.type = iendName) :
    (tableCrate table).Lossless := by
  have hfound {w h : Nat} {rgb : List UInt8} {bytes : ByteSlice}
      (henc : (tableCrate table).encode w h rgb = (bytes, none)) :
      ∃ e ∈ table, e.1 = bytes ∧ e.2 = ⟨w, h, .eight, .rgb, rgb⟩ ∧
        table.find? (fun e => e.1.data = bytes.data) = some e := by
    unfold tableCrate at henc
    dsimp only at henc
    cases hfind : table.find? fun e => e.2 = ⟨w, h, .eight, .rgb, rgb⟩ with
    | none =>
      rw [hfind] at henc
      cases henc
    | some e =>
      rw [hfind] at henc
      cases henc
      have hframe := List.find?_some hfind
      have hmem := List.mem_of_find?_eq_some hfind
      exact ⟨e, hmem, rfl, of_decide_eq_true hframe, find?_key (fun e => e.1.data) hd hmem⟩
  refine ⟨fun w h rgb bytes _ henc => ?_, fun w h rgb bytes _ henc => ?_,
    fun w h rgb bytes _ henc => ?_⟩
  · obtain ⟨e, -, -, he, hfind⟩ := hfound henc
    unfold tableCrate
    dsimp only
    rw [hfind]
    dsimp only
    rw [he]
  · obtain ⟨e, -, -, he, hfind⟩ := hfound henc
    unfold tableCrate
    dsimp only
    rw [hfind]
    dsimp only
    rw [he]
  · obtain ⟨e, hmem, rfl, he, -⟩ := hfound henc
    exact hp e hmem (by rw [he])

/-! ## 4. Files -/

/-- Eight black pixels by eight, in RGB. -/
def blackPng : ByteSlice where
  data := [
    137, 80, 78, 71, 13, 10, 26, 10, 0, 0, 0, 13, 73, 72, 68, 82, 0, 0, 0, 8, 0, 0, 0, 8, 8, 2,
    0, 0, 0, 75, 109, 41, 220, 0, 0, 0, 12, 73, 68, 65, 84, 120, 218, 99, 96, 24, 30, 0, 0, 0,
    200, 0, 1, 147, 189, 165, 142, 0, 0, 0, 0, 73, 69, 78, 68, 174, 66, 96, 130]
  length_lt := by decide

/-- Eight white pixels by eight, in RGB. -/
def whitePng : ByteSlice where
  data := [
    137, 80, 78, 71, 13, 10, 26, 10, 0, 0, 0, 13, 73, 72, 68, 82, 0, 0, 0, 8, 0, 0, 0, 8, 8, 2,
    0, 0, 0, 75, 109, 41, 220, 0, 0, 0, 15, 73, 68, 65, 84, 120, 218, 99, 248, 143, 3, 48, 12,
    45, 9, 0, 186, 30, 191, 65, 137, 232, 182, 187, 0, 0, 0, 0, 73, 69, 78, 68, 174, 66, 96,
    130]
  length_lt := by decide

/-- Eight black pixels by eight, in RGBA, all of them opaque. -/
def opaquePng : ByteSlice where
  data := [
    137, 80, 78, 71, 13, 10, 26, 10, 0, 0, 0, 13, 73, 72, 68, 82, 0, 0, 0, 8, 0, 0, 0, 8, 8, 6,
    0, 0, 0, 196, 15, 190, 139, 0, 0, 0, 17, 73, 68, 65, 84, 120, 218, 99, 96, 96, 96, 248, 79,
    0, 143, 4, 5, 0, 130, 72, 63, 193, 149, 116, 84, 103, 0, 0, 0, 0, 73, 69, 78, 68, 174, 66,
    96, 130]
  length_lt := by decide

/-- The three pictures. -/
def blackFrame : Frame := ⟨8, 8, .eight, .rgb, .replicate 192 0⟩

def whiteFrame : Frame := ⟨8, 8, .eight, .rgb, .replicate 192 255⟩

def opaqueFrame : Frame := 
  ⟨8, 8, .eight, .rgba, (List.range 64).flatMap fun _ => [0, 0, 0, 255]⟩

/-- A crate that knows them. -/
def sampleCrate : PngCrate :=
  tableCrate [(blackPng, blackFrame), (whitePng, whiteFrame), (opaquePng, opaqueFrame)]

theorem black_chunks : chunks (blackPng.data.drop 8) =
    [⟨ihdrName, [0, 0, 0, 8, 0, 0, 0, 8, 8, 2, 0, 0, 0]⟩,
      ⟨idatName, [120, 218, 99, 96, 24, 30, 0, 0, 0, 200, 0, 1]⟩, ⟨iendName, []⟩] := by
  rw [chunks_some rfl, if_neg (by decide), chunks_some rfl, if_neg (by decide), chunks_some rfl,
    if_pos (by decide)]
  rfl

theorem white_chunks : chunks (whitePng.data.drop 8) =
    [⟨ihdrName, [0, 0, 0, 8, 0, 0, 0, 8, 8, 2, 0, 0, 0]⟩,
      ⟨idatName, [120, 218, 99, 248, 143, 3, 48, 12, 45, 9, 0, 186, 30, 191, 65]⟩,
      ⟨iendName, []⟩] := by
  rw [chunks_some rfl, if_neg (by decide), chunks_some rfl, if_neg (by decide), chunks_some rfl,
    if_pos (by decide)]
  rfl

theorem rgba_chunks : chunks (opaquePng.data.drop 8) =
    [⟨ihdrName, [0, 0, 0, 8, 0, 0, 0, 8, 8, 6, 0, 0, 0]⟩,
      ⟨idatName, [120, 218, 99, 96, 96, 96, 248, 79, 0, 143, 4, 5, 0, 130, 72, 63, 193]⟩,
      ⟨iendName, []⟩] := by
  rw [chunks_some rfl, if_neg (by decide), chunks_some rfl, if_neg (by decide), chunks_some rfl,
    if_pos (by decide)]
  rfl

theorem sampleCrate_lossless : sampleCrate.Lossless := by
  refine tableCrate_lossless (by decide) fun e he hc => ?_
  simp only [List.mem_cons, List.not_mem_nil, or_false] at he
  rcases he with rfl | rfl | rfl
  · rw [black_chunks]
    decide
  · rw [white_chunks]
    decide
  · exact nomatch show ColorType.rgba = .rgb from hc

/-- A plane of one value. -/
theorem bytePlane_const {buf : List UInt8} {stride ch n : Nat} {v : UInt8}
    (h : ∀ i < n, buf[stride * i + ch]? = some v) :
    bytePlane buf stride ch n = some (.replicate n v) := by
  have hall (is : List Nat) (his : ∀ i ∈ is, i < n) :
      (is.mapM fun i => buf[stride * i + ch]?) = some (.replicate is.length v) := by
    induction is with
    | nil => rfl
    | cons i is ih =>
      rw [List.mapM_cons, h i (his i List.mem_cons_self),
        ih fun j hj => his j (List.mem_cons_of_mem _ hj)]
      rfl
  unfold bytePlane
  rw [hall _ fun i hi => List.mem_range.mp hi, List.length_range]

/-- A plane of a picture of one value. -/
theorem bytePlane_replicate {c : Nat} (v : UInt8) (hc : c < 3) :
    bytePlane (.replicate 192 v) 3 c (8 * 8) = some (.replicate 64 v) :=
  bytePlane_const fun i hi => by rw [List.getElem?_replicate, if_pos (by omega)]

/-- A picture of one value, decoded. -/
def Decoded.uniform (v : UInt8) : Decoded F := ⟨8, 8, (List.replicate 192 v).map byteSample, none⟩

theorem uniform_decoded {png : PngCrate} {bytes : ByteSlice} {v : UInt8} {tolerate : Bool}
    (hpolicy : profilePolicy tolerate (chunks (bytes.data.drop 8)) = none)
    (hinfo : png.readInfo bytes = .ok (8, 8))
    (hframe : png.nextFrame bytes = .ok ⟨8, 8, .eight, .rgb, .replicate 192 v⟩) :
    decodeBytes png bytes tolerate = .ok (Decoded.uniform v : Decoded F) := by
  rw [decodeBytes_frame tolerate hpolicy hinfo hframe rfl]
  exact frameSamples_rgb (bytePlane_replicate v (by decide)) (bytePlane_replicate v (by decide))
    (bytePlane_replicate v (by decide))

theorem sample_black (tolerate : Bool) :
    decodeBytes sampleCrate blackPng tolerate = .ok (Decoded.uniform 0 : Decoded F) := by
  refine uniform_decoded ?_ rfl rfl
  rw [black_chunks]
  cases tolerate <;> decide

theorem sample_white (tolerate : Bool) :
    decodeBytes sampleCrate whitePng tolerate = .ok (Decoded.uniform 255 : Decoded F) := by
  refine uniform_decoded ?_ rfl rfl
  rw [white_chunks]
  cases tolerate <;> decide

/-- The opaque picture, decoded. -/
def Decoded.opaquely : Decoded F :=
  ⟨8, 8, (List.replicate 192 0).map byteSample, some ((List.replicate 64 255).map byteSample)⟩

theorem sample_rgba (tolerate : Bool) :
    decodeBytes sampleCrate opaquePng tolerate = .ok (Decoded.opaquely : Decoded F) := by
  have hpolicy : profilePolicy tolerate (chunks (opaquePng.data.drop 8)) = none := by
    rw [rgba_chunks]
    cases tolerate <;> decide
  have hread {i c : Nat} (hi : i < 64) (hc : c < 4) : opaqueFrame.buf[4 * i + c]? =
      [(0 : UInt8), 0, 0, 255][c]? := by
    unfold opaqueFrame
    rw [flatMap_getElem (m := 4) (fun _ => rfl) _ i hc, List.getElem?_range hi, Option.bind_some]
  have hcolour {c : Nat} (hc : c < 3) :
      bytePlane opaqueFrame.buf 4 c (8 * 8) = some (.replicate 64 0) := by
    refine bytePlane_const fun i hi => (hread hi (by omega)).trans ?_
    interval_cases c <;> rfl
  have halpha : bytePlane opaqueFrame.buf 4 3 (8 * 8) = some (.replicate 64 255) :=
    bytePlane_const fun i hi => (hread hi (by decide)).trans rfl
  have hframe : sampleCrate.nextFrame opaquePng = .ok opaqueFrame := rfl
  rw [decodeBytes_frame tolerate hpolicy rfl hframe rfl]
  show (do
    let r ← unwrap (bytePlane opaqueFrame.buf 4 0 (8 * 8))
    let g ← unwrap (bytePlane opaqueFrame.buf 4 1 (8 * 8))
    let b ← unwrap (bytePlane opaqueFrame.buf 4 2 (8 * 8))
    let a ← unwrap (bytePlane opaqueFrame.buf 4 3 (8 * 8))
    .ok (⟨8, 8, (r ++ g ++ b).map byteSample, some (a.map byteSample)⟩ : Decoded F)) = _
  rw [hcolour (by decide), hcolour (by decide), hcolour (by decide), halpha]
  rfl

theorem interleave_replicate (v : UInt8) {m n : Nat} (hm : m = 3 * n) :
    interleave (.replicate m v) n = .replicate m v := by
  refine List.eq_replicate_iff.mpr ⟨(interleave_length _ n).trans hm.symm, fun b hb => ?_⟩
  obtain ⟨i, hi, hb⟩ := List.mem_flatMap.mp hb
  have hi := List.mem_range.mp hi
  rw [List.getD_replicate _ (by omega), List.getD_replicate _ (by omega),
    List.getD_replicate _ (by omega)] at hb
  simpa only [List.mem_cons, List.not_mem_nil, or_false, or_self] using hb

/-- A picture of the table is encoded as its file. -/
theorem tableCrate_encode {table : List (ByteSlice × Frame)}
    (hd : table.Pairwise fun a b => a.2 ≠ b.2) {bytes : ByteSlice} {w h : Nat} {rgb : List UInt8}
    (he : (bytes, ⟨w, h, .eight, .rgb, rgb⟩) ∈ table) :
    (tableCrate table).encode w h rgb = (bytes, none) := by
  have hfind := find?_key (fun e : ByteSlice × Frame => e.2) hd he
  unfold tableCrate
  dsimp only
  rw [hfind]

theorem sampleCrate_encode {bytes : ByteSlice} {v : UInt8}
    (he : (bytes, (⟨8, 8, .eight, .rgb, .replicate 192 v⟩ : Frame)) ∈
      [(blackPng, blackFrame), (whitePng, whiteFrame), (opaquePng, opaqueFrame)]) :
    sampleCrate.encode 8 8 (.replicate 192 v) = (bytes, none) :=
  tableCrate_encode (by decide) he

section Files

variable (B : Binary32 F) {E : NormEnv F} {disk : Disk} {inp : String}

include B

theorem normalForm_uniform {bytes out : ByteSlice} {v : UInt8}
    (h : disk (E.host.resolve inp) = some bytes)
    (hdec : decodeBytes E.png bytes true = .ok (Decoded.uniform v : Decoded F))
    (henc : E.png.encode 8 8 (.replicate 192 v) = (out, none)) :
    normalForm E disk inp = some (out, none) := by
  have hint := interleave_replicate v (show 192 = 3 * (8 * 8) by decide)
  have hlen : (List.replicate 192 v).length = 3 * (8 * 8) := List.length_replicate
  have hform := normalForm_interleave B h hdec rfl rfl hlen
  unfold Decoded.uniform at hform
  dsimp only at hform
  rw [hform, hint, henc]

theorem normalForm_black (hE : E.png = sampleCrate)
    (h : disk (E.host.resolve inp) = some blackPng) :
    normalForm E disk inp = some (blackPng, none) :=
  normalForm_uniform B h (hE ▸ sample_black true) (hE ▸ sampleCrate_encode List.mem_cons_self)

theorem normalForm_white (hE : E.png = sampleCrate)
    (h : disk (E.host.resolve inp) = some whitePng) :
    normalForm E disk inp = some (whitePng, none) :=
  normalForm_uniform B h (hE ▸ sample_white true)
    (hE ▸ sampleCrate_encode (List.mem_cons_of_mem _ List.mem_cons_self))

end Files

/-- A machine without errors; a path names the file of its plain spelling. -/
def sampleHost : Host where
  unreadable _ := "No such file or directory (os error 2)"
  createDirAll _ := none
  create _ := none
  resolve := plainPath
  resolve_name hp hq h := by
    rw [← fileName_plainPath, h, fileName_plainPath, hq] at hp
    exact (Option.some.inj hp).symm

/-- The crate on this machine, over exact arithmetic. -/
noncomputable def sampleEnv : NormEnv ℝ where
  isOne v := decide (v = 1)
  png := sampleCrate
  host := sampleHost

theorem sampleEnv_isOne (v : ℝ) : sampleEnv.isOne v = true ↔ v = RingOps.ofNat 1 := by
  rw [exact_ofNat32, Nat.cast_one]
  exact decide_eq_true_iff

theorem opaquely_rewritable : rewritable sampleEnv.isOne Decoded.opaquely = true := by
  have hone : (byteSample 255 : ℝ) = 1 := by
    have h255 : (255 : UInt8).toNat = 255 := rfl
    unfold byteSample byteValue
    rw [h255, exact_ofNat32, exact_ofNat32]
    norm_num
  refine List.all_eq_true.mpr fun v hv => decide_eq_true ?_
  obtain ⟨b, hb, rfl⟩ := List.mem_map.mp hv
  rw [List.eq_of_mem_replicate hb, hone]

/-- The opaque picture is rewritten as the black one. -/
theorem normalForm_rgba {disk : Disk} {inp : String}
    (h : disk (sampleEnv.host.resolve inp) = some opaquePng) :
    normalForm sampleEnv disk inp = some (blackPng, none) := by
  have hint := interleave_replicate (0 : UInt8) (show 192 = 3 * (8 * 8) by decide)
  have hlen : (List.replicate 192 (0 : UInt8)).length = 3 * (8 * 8) := List.length_replicate
  have hpng : sampleEnv.png = sampleCrate := rfl
  have hdec : decodeBytes sampleEnv.png opaquePng true = .ok (Decoded.opaquely : Decoded ℝ) := by
    rw [hpng]
    exact sample_rgba true
  have hs : (Decoded.opaquely : Decoded ℝ).srgb = (List.replicate 192 0).map byteSample := rfl
  have hform := normalForm_interleave exactBinary32 h hdec opaquely_rewritable hs hlen
  unfold Decoded.opaquely at hform
  dsimp only at hform
  rw [hform, hint, hpng, sampleCrate_encode List.mem_cons_self]

end Ssimulacra2
