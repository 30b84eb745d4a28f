/-
  File:      Ssimulacra2/Reference/Dump.lean
  Subject:   The dumps of the reference (`DumpOpen`, `DumpImage3F`, `DumpF64s` of `ssimulacra2.cc`),
             and their reader in the port (`oracle_dump.rs`: `Dump::read`).

  A file is the list of its bytes. A `float` or `double` in memory is its bit pattern; both programs
  run on a little-endian host. The directory, the file names and `meta.txt` are left out.

  * `Dump.read_ok_iff` -- the files the reader accepts;
  * `Dump.read_whole` -- a file that is cut short, or goes on, is rejected;
  * `dump_format` -- both;
  * `read_dumped` -- what the reference writes, the port reads back bit for bit.
-/
import Ssimulacra2.Command
import Ssimulacra2.Lib.LittleEndian
import Ssimulacra2.Reference.FastGaussian

namespace Ssimulacra2.Reference

open LittleEndian

/-! ## 1. The writer -/

/-- `DumpPut`. -/
def dumpPut (v : UInt32) : List UInt8 := putBytes 4 v.toNat

/-- `DumpPut64`. -/
def dumpPut64 (v : UInt64) : List UInt8 := putBytes 8 v.toNat

/-- The magic number, "S2D1". -/
def dumpMagic : UInt32 := 0x31443253

/-- `DumpOpen`: the header. -/
def dumpOpen (dtype : UInt32) (xsize ysize channels : Nat) (payloadBytes : UInt64) : List UInt8 :=
  dumpPut dumpMagic ++ dumpPut dtype ++ dumpPut (UInt32.ofNat xsize) ++
    dumpPut (UInt32.ofNat ysize) ++ dumpPut (UInt32.ofNat channels) ++
    dumpPut (UInt32.ofNat xsize) ++ dumpPut64 payloadBytes ++ dumpPut64 0 ++ dumpPut64 0

/-- `fwrite` of floats. -/
def writeF32s (v : List UInt32) : List UInt8 := v.flatMap dumpPut

/-- `fwrite` of doubles. -/
def writeF64s (v : List UInt64) : List UInt8 := v.flatMap dumpPut64

/-- The planes before the first empty one. -/
def dumpPlanes {kVN : Nat} (img : Nat → Plane UInt32 kVN) : Nat :=
  ((List.range 3).takeWhile fun c => (img c).xsize ≠ 0 ∧ (img c).ysize ≠ 0).length

/-- `DumpImage3F`; `ConstPlaneRow(c, y)` takes the stride of plane 0. -/
def dumpImage3F {kVN : Nat} (img : Nat → Plane UInt32 kVN) : List UInt8 :=
  let planes := dumpPlanes img
  let xsize := (img 0).xsize
  let ysize := (img 0).ysize
  let bytes : UInt64 := UInt64.ofNat planes * UInt64.ofNat xsize * UInt64.ofNat ysize * 4
  dumpOpen 4 xsize ysize planes bytes ++ (List.range planes).flatMap fun c =>
    (List.range ysize).flatMap fun y =>
      writeF32s ((List.range xsize).map fun x => cell (img c).cells (y * (img 0).stride + x))

/-- The dump of a map of doubles (in `SSIMMap` and `EdgeDiffMap`). -/
def dumpMap (xsize ysize : Nat) (map : List UInt64) : List UInt8 :=
  dumpOpen 8 xsize ysize 1 (UInt64.ofNat map.length * 8) ++ writeF64s map

/-- `DumpF64s`. -/
def dumpF64s (v : List UInt64) : List UInt8 :=
  dumpOpen 8 v.length 1 1 (UInt64.ofNat v.length * 8) ++ writeF64s v

/-- The dump of the coefficients (in the constructor of `Blur`). -/
def dumpRg (rg : RgConst UInt32) : List UInt8 :=
  dumpOpen 4 12 5 1 (5 * 12 * 4) ++ writeF32s (rgBlock fun k _ => rg.n2 k) ++
    writeF32s (rgBlock fun k _ => rg.d1 k) ++ writeF32s (rgBlock rg.mulPrev) ++
    writeF32s (rgBlock rg.mulPrev2) ++ writeF32s (rgBlock rg.mulIn)

/-- The dump of the radius. -/
def dumpRadius (rg : RgConst UInt32) : List UInt8 :=
  dumpOpen 3 1 1 1 4 ++ dumpPut (UInt32.ofNat rg.radius)

/-! ## 2. The reader -/

/-- `Dump`. -/
structure Dump where
  dtype : UInt32
  xsize : UInt32
  ysize : UInt32
  channels : UInt32
  f32Data : List UInt32
  f64Data : List UInt64
  u32Data : List UInt32
  deriving DecidableEq

/-- `from_le_bytes`. -/
def fromLe32 (bs : List UInt8) : UInt32 := UInt32.ofNat (getBytes bs)

def fromLe64 (bs : List UInt8) : UInt64 := UInt64.ofNat (getBytes bs)

/-- `g32`. -/
def g32 (bytes : List UInt8) (o : Nat) : UInt32 := fromLe32 ((bytes.drop o).take 4)

/-- `g64`. -/
def g64 (bytes : List UInt8) (o : Nat) : UInt64 := fromLe64 ((bytes.drop o).take 8)

/-- The panic of `assert_eq!(left, right, msg)`. -/
def assertEqText (msg : String) (left right : Nat) : String :=
  s!"assertion `left == right` failed: {msg}\n  left: {left}\n right: {right}"

/-- The `match` of `Dump::read`. -/
def Dump.readPayload (d : Dump) (payload : List UInt8) : Except Fault Dump :=
  if d.dtype = 4 then .ok { d with f32Data := (chunksExact 4 payload).map fromLe32 }
  else if d.dtype = 8 then .ok { d with f64Data := (chunksExact 8 payload).map fromLe64 }
  else if d.dtype = 3 then .ok { d with u32Data := (chunksExact 4 payload).map fromLe32 }
  else .error (.panic s!"dtype {d.dtype} unsupported")

/-- `Dump::read`, on the bytes of the file. The sum `48 + payload` wraps: never to a length of 48 or
    more, so the comparison is one of numbers, but the text shows the wrapped one. -/
def Dump.read (bytes : List UInt8) : Except Fault Dump :=
  let payload := (g64 bytes 24).toNat
  if bytes.length < 48 then .error (.panic "dump too short")
  else if g32 bytes 0 ≠ dumpMagic then
    .error (.panic (assertEqText "bad magic (not S2D1)" (g32 bytes 0).toNat dumpMagic.toNat))
  else if 48 + payload ≠ bytes.length then
    .error (.panic (assertEqText "payload size mismatch" ((48 + payload) % 2 ^ 64) bytes.length))
  else
    let d : Dump := ⟨g32 bytes 4, g32 bytes 8, g32 bytes 12, g32 bytes 16, [], [], []⟩
    d.readPayload (bytes.drop 48)

/-! ## 3. Words -/

/-- The words of a file. -/
def word32 : Codec UInt32 4 where
  put := dumpPut
  get := fromLe32
  put_length _ := putBytes_length 4 _
  get_put v := by
    unfold fromLe32 dumpPut
    rw [getBytes_putBytes_of_lt v.toNat_lt, UInt32.ofNat_toNat]
  put_get bs h := by
    have hlt := getBytes_lt bs
    rw [h] at hlt
    unfold fromLe32 dumpPut
    rw [UInt32.toNat_ofNat_of_lt' hlt, ← h, putBytes_getBytes]

/-- The long words of a file. -/
def word64 : Codec UInt64 8 where
  put := dumpPut64
  get := fromLe64
  put_length _ := putBytes_length 8 _
  get_put v := by
    unfold fromLe64 dumpPut64
    rw [getBytes_putBytes_of_lt v.toNat_lt, UInt64.ofNat_toNat]
  put_get bs h := by
    have hlt := getBytes_lt bs
    rw [h] at hlt
    unfold fromLe64 dumpPut64
    rw [UInt64.toNat_ofNat_of_lt' hlt, ← h, putBytes_getBytes]

@[simp] theorem dumpPut_length (v : UInt32) : (dumpPut v).length = 4 := word32.put_length v

@[simp] theorem dumpPut64_length (v : UInt64) : (dumpPut64 v).length = 8 := word64.put_length v

/-! ## 4. What the reader accepts -/

/-- **The payload of a dump**: its elements, and less than an element behind them. -/
inductive Payload : Dump → List UInt8 → Prop
  | f32 (xsize ysize channels : UInt32) (v : List UInt32) (rest : List UInt8) (h : rest.length < 4) :
      Payload ⟨4, xsize, ysize, channels, v, [], []⟩ (writeF32s v ++ rest)
  | f64 (xsize ysize channels : UInt32) (v : List UInt64) (rest : List UInt8) (h : rest.length < 8) :
      Payload ⟨8, xsize, ysize, channels, [], v, []⟩ (writeF64s v ++ rest)
  | u32 (xsize ysize channels : UInt32) (v : List UInt32) (rest : List UInt8) (h : rest.length < 4) :
      Payload ⟨3, xsize, ysize, channels, [], [], v⟩ (writeF32s v ++ rest)

/-- The header of a dump; the reader skips the stride and the reserved words. -/
def Dump.header (d : Dump) (stride : UInt32) (payloadBytes r1 r2 : UInt64) : List UInt8 :=
  dumpPut dumpMagic ++ (dumpPut d.dtype ++ (dumpPut d.xsize ++ (dumpPut d.ysize ++
    (dumpPut d.channels ++ (dumpPut stride ++ (dumpPut64 payloadBytes ++
      (dumpPut64 r1 ++ dumpPut64 r2)))))))

theorem Dump.readPayload_ok_iff {dtype xsize ysize channels : UInt32} {payload : List UInt8}
    {d : Dump} : Dump.readPayload ⟨dtype, xsize, ysize, channels, [], [], []⟩ payload = .ok d ↔
      Payload d payload ∧ d.dtype = dtype ∧ d.xsize = xsize ∧ d.ysize = ysize ∧
        d.channels = channels := by
  unfold Dump.readPayload
  constructor
  · intro h
    split_ifs at h with h4 h8 h3
    · obtain ⟨rest, hrest, e⟩ := word32.putAll_getAll (by decide) payload
      have hp := Payload.f32 xsize ysize channels (word32.getAll payload) rest hrest
      rw [show writeF32s (word32.getAll payload) ++ rest = payload from e.symm] at hp
      cases h
      exact ⟨h4 ▸ hp, rfl, rfl, rfl, rfl⟩
    · obtain ⟨rest, hrest, e⟩ := word64.putAll_getAll (by decide) payload
      have hp := Payload.f64 xsize ysize channels (word64.getAll payload) rest hrest
      rw [show writeF64s (word64.getAll payload) ++ rest = payload from e.symm] at hp
      cases h
      exact ⟨h8 ▸ hp, rfl, rfl, rfl, rfl⟩
    · obtain ⟨rest, hrest, e⟩ := word32.putAll_getAll (by decide) payload
      have hp := Payload.u32 xsize ysize channels (word32.getAll payload) rest hrest
      rw [show writeF32s (word32.getAll payload) ++ rest = payload from e.symm] at hp
      cases h
      exact ⟨h3 ▸ hp, rfl, rfl, rfl, rfl⟩
  · rintro ⟨hp, rfl, rfl, rfl, rfl⟩
    cases hp with
    | f32 xsize ysize channels v rest h =>
      have e : (chunksExact 4 (writeF32s v ++ rest)).map fromLe32 = v := word32.getAll_putAll v h
      rw [e, if_pos rfl]
    | f64 xsize ysize channels v rest h =>
      have e : (chunksExact 8 (writeF64s v ++ rest)).map fromLe64 = v := word64.getAll_putAll v h
      rw [e, if_neg (show (8 : UInt32) ≠ 4 by decide), if_pos rfl]
    | u32 xsize ysize channels v rest h =>
      have e : (chunksExact 4 (writeF32s v ++ rest)).map fromLe32 = v := word32.getAll_putAll v h
      rw [e, if_neg (show (3 : UInt32) ≠ 4 by decide), if_neg (show (3 : UInt32) ≠ 8 by decide),
        if_pos rfl]

section Header

variable (d : Dump) (stride : UInt32) (n r1 r2 : UInt64) (payload : List UInt8)

theorem Dump.header_length : (d.header stride n r1 r2).length = 48 := by
  unfold Dump.header
  simp only [List.length_append, dumpPut_length, dumpPut64_length]

/-- **The reader finds the fields of the header**, and the payload behind it. -/
theorem Dump.header_fields : let file := d.header stride n r1 r2 ++ payload
    g32 file 0 = dumpMagic ∧ g32 file 4 = d.dtype ∧ g32 file 8 = d.xsize ∧ g32 file 12 = d.ysize ∧
      g32 file 16 = d.channels ∧ g64 file 24 = n ∧ file.drop 48 = payload := by
  intro file
  have hfile : file = dumpPut dumpMagic ++ (dumpPut d.dtype ++ (dumpPut d.xsize ++ (dumpPut d.ysize ++
      (dumpPut d.channels ++ (dumpPut stride ++ (dumpPut64 n ++
        (dumpPut64 r1 ++ (dumpPut64 r2 ++ payload)))))))) := by
    simp only [file, Dump.header, List.append_assoc]
  have hhead (v : UInt32) (b : List UInt8) : g32 (dumpPut v ++ b) 0 = v := word32.readAt_head v b
  have hskip (v : UInt32) (b : List UInt8) (o : Nat) : g32 (dumpPut v ++ b) (4 + o) = g32 b o :=
    word32.readAt_skip (dumpPut_length v) b o
  have hskip64 (v : UInt32) (b : List UInt8) (o : Nat) : g64 (dumpPut v ++ b) (4 + o) = g64 b o :=
    word64.readAt_skip (dumpPut_length v) b o
  refine ⟨?_, ?_, ?_, ?_, ?_, ?_, ?_⟩
  · rw [hfile, hhead]
  · rw [hfile, hskip _ _ 0, hhead]
  · rw [hfile, hskip _ _ 4, hskip _ _ 0, hhead]
  · rw [hfile, hskip _ _ 8, hskip _ _ 4, hskip _ _ 0, hhead]
  · rw [hfile, hskip _ _ 12, hskip _ _ 8, hskip _ _ 4, hskip _ _ 0, hhead]
  · rw [hfile, hskip64 _ _ 20, hskip64 _ _ 16, hskip64 _ _ 12, hskip64 _ _ 8, hskip64 _ _ 4,
      hskip64 _ _ 0]
    exact word64.readAt_head n _
  · exact List.drop_left' (d.header_length stride n r1 r2)

end Header

/-- **The files the reader accepts**: a header, whose length is that of the rest, and a payload of
    elements. Nothing is lost but the stride, the reserved words and the rest of the payload. -/
theorem Dump.read_ok_iff {bytes : List UInt8} {d : Dump} : Dump.read bytes = .ok d ↔
    ∃ (stride : UInt32) (n r1 r2 : UInt64) (payload : List UInt8),
      bytes = d.header stride n r1 r2 ++ payload ∧ n.toNat = payload.length ∧ Payload d payload := by
  constructor
  · intro h
    unfold Dump.read at h
    dsimp only at h
    split_ifs at h with hshort hmagic hlen
    obtain ⟨hp, e4, e8, e12, e16⟩ := Dump.readPayload_ok_iff.mp h
    refine ⟨g32 bytes 20, g64 bytes 24, g64 bytes 32, g64 bytes 40, bytes.drop 48, ?_, ?_, hp⟩
    · have h32 (o : Nat) (ho : o + 4 ≤ bytes.length) :
          bytes.drop o = dumpPut (g32 bytes o) ++ bytes.drop (o + 4) := word32.drop_readAt ho
      have h64 (o : Nat) (ho : o + 8 ≤ bytes.length) :
          bytes.drop o = dumpPut64 (g64 bytes o) ++ bytes.drop (o + 8) := word64.drop_readAt ho
      unfold Dump.header
      rw [e4, e8, e12, e16, ← not_not.mp hmagic]
      simp only [List.append_assoc]
      rw [← h64 40 (by omega), ← h64 32 (by omega), ← h64 24 (by omega), ← h32 20 (by omega),
        ← h32 16 (by omega), ← h32 12 (by omega), ← h32 8 (by omega), ← h32 4 (by omega)]
      exact h32 0 (by omega)
    · rw [List.length_drop]
      omega
  · rintro ⟨stride, n, r1, r2, payload, rfl, hn, hp⟩
    obtain ⟨h0, h4, h8, h12, h16, h24, hdrop⟩ := d.header_fields stride n r1 r2 payload
    have hlen : (d.header stride n r1 r2 ++ payload).length = 48 + payload.length := by
      rw [List.length_append, d.header_length]
    unfold Dump.read
    dsimp only
    rw [h24, h0, h4, h8, h12, h16, hdrop, if_neg (by omega), if_neg (not_not.mpr rfl),
      if_neg (by omega)]
    exact Dump.readPayload_ok_iff.mpr ⟨hp, rfl, rfl, rfl, rfl⟩

/-- **A file that is cut short, or goes on, is rejected**: of two files that are accepted neither goes
    on where the other ends. -/
theorem Dump.read_whole {bytes rest : List UInt8} {d e : Dump} (h : Dump.read bytes = .ok d)
    (he : Dump.read (bytes ++ rest) = .ok e) : rest = [] := by
  obtain ⟨stride, n, r1, r2, p, hbytes, hn, -⟩ := Dump.read_ok_iff.mp h
  obtain ⟨stride', n', r1', r2', p', hlong, hn', -⟩ := Dump.read_ok_iff.mp he
  -- both headers stand at the same place
  have hfirst : g64 (bytes ++ rest) 24 = n := by
    rw [hbytes, List.append_assoc]
    exact (d.header_fields stride n r1 r2 (p ++ rest)).2.2.2.2.2.1
  have hsecond : g64 (bytes ++ rest) 24 = n' := by
    rw [hlong]
    exact (e.header_fields stride' n' r1' r2' p').2.2.2.2.2.1
  have hlen := congrArg List.length hlong
  rw [hbytes] at hlen
  simp only [List.length_append, Dump.header_length] at hlen
  have hnn : n = n' := hfirst.symm.trans hsecond
  rw [hnn] at hn
  exact List.eq_nil_of_length_eq_zero (by omega)

/-- **The format**: the files the reader accepts, of which none goes on where another one ends. -/
theorem dump_format (bytes : List UInt8) :
    (∀ d : Dump, Dump.read bytes = .ok d ↔
      ∃ (stride : UInt32) (n r1 r2 : UInt64) (payload : List UInt8),
        bytes = d.header stride n r1 r2 ++ payload ∧ n.toNat = payload.length ∧
          Payload d payload) ∧
    ∀ (d e : Dump) (rest : List UInt8), Dump.read bytes = .ok d →
      Dump.read (bytes ++ rest) = .ok e → rest = [] :=
  ⟨fun _ => Dump.read_ok_iff, fun _ _ _ h he => Dump.read_whole h he⟩

/-! ## 5. What the reference writes -/

/-- What the reference dumps. -/
inductive Dumped (kVN : Nat) where
  | image3F (img : Nat → Plane UInt32 kVN)
  | f64Map (xsize ysize : Nat) (map : List UInt64)
  | f64s (v : List UInt64)
  | rg (consts : RgConst UInt32)
  | radius (consts : RgConst UInt32)

section Files

variable {kVN : Nat}

/-- The file. -/
def Dumped.file : Dumped kVN → List UInt8
  | .image3F img => dumpImage3F img
  | .f64Map xsize ysize map => dumpMap xsize ysize map
  | .f64s v => dumpF64s v
  | .rg consts => dumpRg consts
  | .radius consts => dumpRadius consts

/-- What is to be read: of an image its samples, plane by plane; of the coefficients the words
    `rg_upload` sends, without the padding. -/
def Dumped.content : Dumped kVN → Dump
  | .image3F img => ⟨4, UInt32.ofNat (img 0).xsize, UInt32.ofNat (img 0).ysize,
      UInt32.ofNat (dumpPlanes img), image (img 0).xsize (img 0).ysize fun c => (img c).sample,
      [], []⟩
  | .f64Map xsize ysize map => ⟨8, UInt32.ofNat xsize, UInt32.ofNat ysize, 1, [], map, []⟩
  | .f64s v => ⟨8, UInt32.ofNat v.length, 1, 1, [], v, []⟩
  | .rg consts => ⟨4, 12, 5, 1, (rgUpload consts).take 60, [], []⟩
  | .radius consts => ⟨3, 1, 1, 1, [], [], [UInt32.ofNat consts.radius]⟩

/-- The planes of an image have one size and one stride; the length of a payload fits its field. -/
def Dumped.Fits : Dumped kVN → Prop
  | .image3F img => (∀ c < 3, (img c).xsize = (img 0).xsize ∧ (img c).ysize = (img 0).ysize ∧
      (img c).stride = (img 0).stride) ∧ 3 * (img 0).xsize * (img 0).ysize * 4 < 2 ^ 64
  | .f64Map _ _ map => map.length * 8 < 2 ^ 64
  | .f64s v => v.length * 8 < 2 ^ 64
  | .rg _ => True
  | .radius _ => True

/-- A file that `DumpOpen` begins. -/
theorem read_written {dtype : UInt32} {xsize ysize channels : Nat} {n : UInt64} {d : Dump}
    (hd : d.dtype = dtype ∧ d.xsize = UInt32.ofNat xsize ∧ d.ysize = UInt32.ofNat ysize ∧
      d.channels = UInt32.ofNat channels) {payload : List UInt8} (hn : n.toNat = payload.length)
    (hp : Payload d payload) :
    Dump.read (dumpOpen dtype xsize ysize channels n ++ payload) = .ok d := by
  obtain ⟨hdtype, hx, hy, hc⟩ := hd
  refine Dump.read_ok_iff.mpr ⟨UInt32.ofNat xsize, n, 0, 0, payload, ?_, hn, hp⟩
  unfold dumpOpen Dump.header
  rw [hdtype, hx, hy, hc]
  simp only [List.append_assoc]

/-- Elements and nothing behind them. -/
theorem payload_f32 (xsize ysize channels : UInt32) (v : List UInt32) :
    Payload ⟨4, xsize, ysize, channels, v, [], []⟩ (writeF32s v) := by
  have h := Payload.f32 xsize ysize channels v [] (by decide)
  rwa [List.append_nil] at h

theorem payload_f64 (xsize ysize channels : UInt32) (v : List UInt64) :
    Payload ⟨8, xsize, ysize, channels, [], v, []⟩ (writeF64s v) := by
  have h := Payload.f64 xsize ysize channels v [] (by decide)
  rwa [List.append_nil] at h

theorem writeF32s_length (v : List UInt32) : (writeF32s v).length = v.length * 4 :=
  (word32.putAll_length v).trans (Nat.mul_comm _ _)

theorem writeF64s_length (v : List UInt64) : (writeF64s v).length = v.length * 8 :=
  (word64.putAll_length v).trans (Nat.mul_comm _ _)

/-- The length of doubles. -/
theorem doubles_toNat {n : Nat} (h : n * 8 < 2 ^ 64) : (UInt64.ofNat n * 8).toNat = n * 8 := by
  rw [show (8 : UInt64) = UInt64.ofNat 8 from rfl, ← UInt64.ofNat_mul]
  exact UInt64.toNat_ofNat_of_lt' h

/-- An image is its planes, and a plane its rows. -/
theorem image_rows {F : Type} (w h : Nat) (f : Nat → Nat → Nat → F) :
    image w h f = (List.range 3).flatMap fun c => (List.range h).flatMap fun y =>
      (List.range w).map fun x => f c y x := by
  let g (j : Nat) : F := f (j / (w * h)) (j % (w * h) / w) (j % w)
  calc image w h f = (List.range (3 * w * h)).map g := rfl
    _ = (List.range (3 * (h * w))).map g := by rw [Nat.mul_assoc, Nat.mul_comm w h]
    _ = (List.range 3).flatMap fun c => (List.range h).flatMap fun y =>
          (List.range w).map fun x => g (c * (h * w) + (y * w + x)) := by
        rw [← Lists.range_rows 3 (h * w), ← Lists.range_rows h w]
        simp only [List.map_flatMap, List.map_map, Function.comp_def]
    _ = _ := by
        refine List.flatMap_congr fun c hc => List.flatMap_congr fun y hy =>
          List.map_congr_left fun x hx => ?_
        rw [List.mem_range] at hy hx
        have e : c * (h * w) + (y * w + x) = flat w h c y x := by
          unfold flat
          ring
        rw [e]
        exact decode_flat f hy hx

/-- All planes are empty, or none is. -/
theorem dumpPlanes_eq {img : Nat → Plane UInt32 kVN}
    (hsame : ∀ c < 3, (img c).xsize = (img 0).xsize ∧ (img c).ysize = (img 0).ysize ∧
      (img c).stride = (img 0).stride) :
    dumpPlanes img = if (img 0).xsize ≠ 0 ∧ (img 0).ysize ≠ 0 then 3 else 0 := by
  obtain ⟨hx1, hy1, -⟩ := hsame 1 (by decide)
  obtain ⟨hx2, hy2, -⟩ := hsame 2 (by decide)
  unfold dumpPlanes
  rw [show List.range 3 = [0, 1, 2] from rfl]
  split_ifs with h
  · simp [hx1, hy1, hx2, hy2, h]
  · rw [List.takeWhile_cons, if_neg (by simpa using h)]
    rfl

/-- **The payload of an image** is its samples, plane by plane. -/
theorem image_payload {img : Nat → Plane UInt32 kVN}
    (hsame : ∀ c < 3, (img c).xsize = (img 0).xsize ∧ (img c).ysize = (img 0).ysize ∧
      (img c).stride = (img 0).stride) :
    ((List.range (dumpPlanes img)).flatMap fun c => (List.range (img 0).ysize).flatMap fun y =>
      writeF32s ((List.range (img 0).xsize).map fun x =>
        cell (img c).cells (y * (img 0).stride + x))) =
      writeF32s (image (img 0).xsize (img 0).ysize fun c => (img c).sample) ∧
    dumpPlanes img * (img 0).xsize * (img 0).ysize = 3 * (img 0).xsize * (img 0).ysize := by
  rw [dumpPlanes_eq hsame]
  split_ifs with h
  · refine ⟨?_, rfl⟩
    unfold writeF32s
    rw [image_rows, List.flatMap_assoc]
    refine List.flatMap_congr fun c hc => ?_
    rw [List.flatMap_assoc]
    refine List.flatMap_congr fun y _ =>
      congrArg (List.flatMap dumpPut) (List.map_congr_left fun x _ => ?_)
    unfold Plane.sample
    rw [(hsame c (List.mem_range.mp hc)).2.2]
  · have hzero : 3 * (img 0).xsize * (img 0).ysize = 0 := by
      rcases not_and_or.mp h with h | h
      · rw [not_not.mp h, Nat.mul_zero, Nat.zero_mul]
      · rw [not_not.mp h, Nat.mul_zero]
    have hnil : image (img 0).xsize (img 0).ysize (fun c => (img c).sample) = [] :=
      List.eq_nil_of_length_eq_zero ((image_length _).trans hzero)
    rw [hnil, hzero, Nat.zero_mul, Nat.zero_mul]
    exact ⟨rfl, rfl⟩

/-- **What the reference writes, the port reads back**, bit for bit. -/
theorem read_dumped (d : Dumped kVN) (h : d.Fits) : Dump.read d.file = .ok d.content := by
  cases d with
  | image3F img =>
    obtain ⟨hsame, hfits⟩ := h
    obtain ⟨hpayload, hsize⟩ := image_payload hsame
    have hlen : (UInt64.ofNat (dumpPlanes img) * UInt64.ofNat (img 0).xsize *
        UInt64.ofNat (img 0).ysize * 4).toNat = 3 * (img 0).xsize * (img 0).ysize * 4 := by
      rw [show (4 : UInt64) = UInt64.ofNat 4 from rfl, ← UInt64.ofNat_mul, ← UInt64.ofNat_mul,
        ← UInt64.ofNat_mul, hsize]
      exact UInt64.toNat_ofNat_of_lt' hfits
    unfold Dumped.file Dumped.content dumpImage3F
    dsimp only
    rw [hpayload]
    refine read_written ?_ ?_ (payload_f32 _ _ _ _)
    · exact ⟨rfl, rfl, rfl, rfl⟩
    · rw [hlen, writeF32s_length, image_length]
  | f64Map xsize ysize map =>
    unfold Dumped.file Dumped.content dumpMap
    refine read_written ?_ ?_ (payload_f64 _ _ _ _)
    · exact ⟨rfl, rfl, rfl, rfl⟩
    · rw [writeF64s_length]
      exact doubles_toNat h
  | f64s v =>
    unfold Dumped.file Dumped.content dumpF64s
    refine read_written ?_ ?_ (payload_f64 _ _ _ _)
    · exact ⟨rfl, rfl, rfl, rfl⟩
    · rw [writeF64s_length]
      exact doubles_toNat h
  | rg consts =>
    have hwords : dumpRg consts =
        dumpOpen 4 12 5 1 (5 * 12 * 4) ++ writeF32s ((rgUpload consts).take 60) := by
      unfold dumpRg writeF32s rgUpload
      simp only [← List.flatMap_append, List.append_assoc]
      rfl
    unfold Dumped.file Dumped.content
    dsimp only
    rw [hwords]
    refine read_written ?_ ?_ (payload_f32 _ _ _ _)
    · exact ⟨rfl, rfl, rfl, rfl⟩
    · have hlen : ((rgUpload consts).take 60).length = 60 := rfl
      rw [writeF32s_length, hlen]
      decide
  | radius consts =>
    have h := Payload.u32 1 1 1 [UInt32.ofNat consts.radius] [] (by decide)
    rw [List.append_nil] at h
    have hword : writeF32s [UInt32.ofNat consts.radius] = dumpPut (UInt32.ofNat consts.radius) :=
      List.append_nil _
    rw [hword] at h
    unfold Dumped.file Dumped.content dumpRadius
    refine read_written ?_ ?_ h
    · exact ⟨rfl, rfl, rfl, rfl⟩
    · exact (dumpPut_length _).symm

end Files

/-- An image of 5 by 3 with padding. -/
def smallImage (c : Nat) : Plane UInt32 4 := Plane.new 4 5 3 fun i => UInt32.ofNat (i + c)

theorem read_dumped_small : Dump.read (dumpImage3F smallImage) =
    .ok ⟨4, 5, 3, UInt32.ofNat (dumpPlanes smallImage), image 5 3 fun c => (smallImage c).sample,
      [], []⟩ := by
  have hfits : (Dumped.image3F smallImage).Fits :=
    ⟨fun _ _ => ⟨rfl, rfl, rfl⟩, show 3 * 5 * 3 * 4 < 2 ^ 64 by decide⟩
  exact read_dumped (.image3F smallImage) hfits

end Ssimulacra2.Reference
