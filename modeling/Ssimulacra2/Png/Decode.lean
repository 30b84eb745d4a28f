/-
  File:      Ssimulacra2/Png/Decode.lean
  Subject:   The decoder (`decode_png`, `decode_png_ingest`), over the `png` crate.

  The crate is a parameter (`PngCrate`). A sample is its byte on the grid (`byteSample`), so an image
  that was decoded is a list of bytes (`ByteImage`).
-/
import Ssimulacra2.Command
import Ssimulacra2.Png.Chunks
import Ssimulacra2.Vulkan.Pair

namespace Ssimulacra2

open Lists

variable {F : Type} [F32 F]

/-! ## 1. The crate -/

/-- `png::ColorType`. -/
inductive ColorType where
  | grayscale
  | rgb
  | indexed
  | grayscaleAlpha
  | rgba
  deriving DecidableEq, Repr

namespace ColorType

/-- Its text under `{:?}`. -/
def text : ColorType → String
  | grayscale => "Grayscale"
  | rgb => "Rgb"
  | indexed => "Indexed"
  | grayscaleAlpha => "GrayscaleAlpha"
  | rgba => "Rgba"

/-- `ColorType::samples`. -/
def samples : ColorType → Nat
  | grayscale => 1
  | rgb => 3
  | indexed => 1
  | grayscaleAlpha => 2
  | rgba => 4

/-- The code of the header. -/
def ofCode : Nat → Option ColorType
  | 0 => some grayscale
  | 2 => some rgb
  | 3 => some indexed
  | 4 => some grayscaleAlpha
  | 6 => some rgba
  | _ => none

/-- The colour types with an alpha channel. -/
def hasAlpha : ColorType → Bool
  | grayscaleAlpha => true
  | rgba => true
  | _ => false

end ColorType

/-- `png::BitDepth`. -/
inductive BitDepth where
  | one
  | two
  | four
  | eight
  | sixteen
  deriving DecidableEq, Repr

/-- Its text under `{:?}`. -/
def BitDepth.text : BitDepth → String
  | one => "One"
  | two => "Two"
  | four => "Four"
  | eight => "Eight"
  | sixteen => "Sixteen"

/-- `png::OutputInfo`, with the buffer that `next_frame` filled. -/
structure Frame where
  width : Nat
  height : Nat
  bitDepth : BitDepth
  colorType : ColorType
  buf : List UInt8
  deriving DecidableEq

/-- **The `png` crate.** An error is its text. -/
structure PngCrate where
  /-- `Decoder::read_info`: the size of the image. -/
  readInfo : ByteSlice → Except String (Nat × Nat)
  /-- `Reader::next_frame`. -/
  nextFrame : ByteSlice → Except String Frame
  /-- `Encoder` for 8-bit RGB: the bytes it wrote, and the error it stopped at. -/
  encode : Nat → Nat → List UInt8 → ByteSlice × Option String

/-! ## 2. The decoder -/

/-- The closure `f`. -/
def byteSample (v : UInt8) : F := byteValue v.toNat

/-- The bytes `buf[stride * i + ch]` of the pixels. -/
def bytePlane (buf : List UInt8) (stride ch n : Nat) : Option (List UInt8) :=
  (List.range n).mapM fun i => buf[stride * i + ch]?

/-- The error of a profile chunk. -/
def profileErr (chunk : String) : String :=
  s!"PNG carries a {chunk} chunk (color-managed input); this CLI supports plain " ++
    "sRGB/gray/RGB PNGs - use the C++ oracle binary for profiled images"

/-- The samples of a frame, by its colour type. -/
def frameSamples (of : Frame) (w h : Nat) : Except Fault (Decoded F) :=
  let n := w * h
  match of.colorType with
  | .grayscale => do
      let v ← unwrap (bytePlane of.buf 1 0 n)
      .ok ⟨w, h, (v ++ v ++ v).map byteSample, none⟩
  | .rgb => do
      let r ← unwrap (bytePlane of.buf 3 0 n)
      let g ← unwrap (bytePlane of.buf 3 1 n)
      let b ← unwrap (bytePlane of.buf 3 2 n)
      .ok ⟨w, h, (r ++ g ++ b).map byteSample, none⟩
  | .rgba => do
      let r ← unwrap (bytePlane of.buf 4 0 n)
      let g ← unwrap (bytePlane of.buf 4 1 n)
      let b ← unwrap (bytePlane of.buf 4 2 n)
      let a ← unwrap (bytePlane of.buf 4 3 n)
      .ok ⟨w, h, (r ++ g ++ b).map byteSample, some (a.map byteSample)⟩
  | other => .error (.message s!"unsupported color type {other.text}")

/-- `decode_png_opts` on the bytes of the file. -/
def decodeBytes (png : PngCrate) (bytes : ByteSlice) (toleratePixelNeutral : Bool) :
    Except Fault (Decoded F) := do
  match ← unwrap (pngProfileChunk bytes toleratePixelNeutral) with
  | some chunk => .error (.message (profileErr chunk.text))
  | none =>
      let size ← (png.readInfo bytes).mapError fun e => .message s!"png info: {e}"
      let w := size.1
      let h := size.2
      let of ← (png.nextFrame bytes).mapError fun e => .message s!"png frame: {e}"
      if of.width ≠ w ∨ of.height ≠ h then .error (.message "frame size mismatch")
      else if of.bitDepth ≠ .eight then
        .error (.message s!"only 8-bit PNGs supported (got {of.bitDepth.text})")
      else frameSamples of w h

/-- The contents of the files, by the paths that `Host.resolve` gives them. -/
abbrev Disk : Type := String → Option ByteSlice

/-- The operating system: its errors, and which file a path names. There are no links, so that two
    paths to one file end in one name; how a path is spelled is free. -/
structure Host where
  /-- The text of the error of a file that cannot be read. -/
  unreadable : String → String
  /-- `std::fs::create_dir_all`. -/
  createDirAll : String → Option String
  /-- `std::fs::File::create`. -/
  create : String → Option String
  /-- The file of a path, by a path of its own. -/
  resolve : String → String
  resolve_name : ∀ {p q a b}, fileName p = some a → fileName q = some b → resolve p = resolve q → a = b

/-- `std::fs::read`. -/
def Disk.read (disk : Disk) (host : Host) (path : String) : Except String ByteSlice :=
  match disk (host.resolve path) with
  | some bytes => .ok bytes
  | none => .error (host.unreadable path)

/-- `decode_png_opts`. -/
def decodePngOpts (png : PngCrate) (host : Host) (disk : Disk) (path : String)
    (toleratePixelNeutral : Bool) : Except Fault (Decoded F) := do
  let bytes ← (disk.read host path).mapError fun e => .message s!"read {path}: {e}"
  decodeBytes png bytes toleratePixelNeutral

/-- `decode_png`. -/
def decodePng (png : PngCrate) (host : Host) (disk : Disk) (path : String) :
    Except Fault (Decoded F) := decodePngOpts png host disk path false

/-- `decode_png_ingest`. -/
def decodePngIngest (png : PngCrate) (host : Host) (disk : Disk) (path : String) :
    Except Fault (Decoded F) := decodePngOpts png host disk path true

/-! ## 3. What was decoded -/

theorem bytePlane_length {buf : List UInt8} {stride ch n : Nat} {bs : List UInt8}
    (h : bytePlane buf stride ch n = some bs) : bs.length = n := by
  rw [← (mapM_forall₂ h).length_eq, List.length_range]

/-- The bytes of an interleaved buffer. -/
theorem bytePlane_get {buf : List UInt8} {stride ch n : Nat} {bs : List UInt8}
    (h : bytePlane buf stride ch n = some bs) {i : Nat} (hi : i < n) :
    bs[i]? = buf[stride * i + ch]? := by
  have hlen := bytePlane_length h
  have hi' : i < bs.length := by omega
  have hall := List.forall₂_iff_get.mp (mapM_forall₂ h)
  have hget := hall.2 i (by rw [List.length_range]; exact hi) hi'
  rw [List.get_eq_getElem, List.getElem_range] at hget
  rw [hget, List.get_eq_getElem, List.getElem?_eq_getElem hi']

/-- **An image of a frame**: three planes of bytes, and a plane of alpha when the frame is RGBA. -/
structure FromFrame (of : Frame) (d : Decoded F) : Prop where
  w_eq : d.w = of.width
  h_eq : d.h = of.height
  samples : ∃ bs : List UInt8, d.srgb = bs.map byteSample ∧ bs.length = 3 * (d.w * d.h)
  alpha : of.colorType = .rgba ∧
      (∃ as, d.alpha = some (as.map byteSample) ∧ bytePlane of.buf 4 3 (d.w * d.h) = some as) ∨
    (of.colorType = .grayscale ∨ of.colorType = .rgb) ∧ d.alpha = none

theorem frameSamples_ok {of : Frame} {d : Decoded F}
    (h : frameSamples of of.width of.height = .ok d) : FromFrame of d := by
  have hthree {r g b : List UInt8} {n : Nat} (hr : r.length = n) (hg : g.length = n)
      (hb : b.length = n) : (r ++ g ++ b).length = 3 * n := by
    rw [List.length_append, List.length_append, hr, hg, hb]
    omega
  unfold frameSamples at h
  cases hc : of.colorType with
  | grayscale =>
    rw [hc] at h
    obtain ⟨v, hv, h⟩ := except_bind_ok.mp h
    cases h
    have hl := bytePlane_length (unwrap_ok.mp hv)
    exact ⟨rfl, rfl, ⟨_, rfl, hthree hl hl hl⟩, Or.inr ⟨Or.inl hc, rfl⟩⟩
  | rgb =>
    rw [hc] at h
    obtain ⟨r, hr, h⟩ := except_bind_ok.mp h
    obtain ⟨g, hg, h⟩ := except_bind_ok.mp h
    obtain ⟨b, hb, h⟩ := except_bind_ok.mp h
    cases h
    exact ⟨rfl, rfl, ⟨_, rfl, hthree (bytePlane_length (unwrap_ok.mp hr))
      (bytePlane_length (unwrap_ok.mp hg)) (bytePlane_length (unwrap_ok.mp hb))⟩,
      Or.inr ⟨Or.inr hc, rfl⟩⟩
  | rgba =>
    rw [hc] at h
    obtain ⟨r, hr, h⟩ := except_bind_ok.mp h
    obtain ⟨g, hg, h⟩ := except_bind_ok.mp h
    obtain ⟨b, hb, h⟩ := except_bind_ok.mp h
    obtain ⟨a, ha, h⟩ := except_bind_ok.mp h
    cases h
    exact ⟨rfl, rfl, ⟨_, rfl, hthree (bytePlane_length (unwrap_ok.mp hr))
      (bytePlane_length (unwrap_ok.mp hg)) (bytePlane_length (unwrap_ok.mp hb))⟩,
      Or.inl ⟨hc, a, rfl, unwrap_ok.mp ha⟩⟩
  | indexed =>
    rw [hc] at h
    cases h
  | grayscaleAlpha =>
    rw [hc] at h
    cases h

/-- **What was decoded** passed the chunk policy and is the image of an 8-bit frame. -/
theorem decodeBytes_ok {png : PngCrate} {bytes : ByteSlice} {tolerate : Bool} {d : Decoded F}
    (h : decodeBytes png bytes tolerate = .ok d) :
    profilePolicy tolerate (chunks (bytes.data.drop 8)) = none ∧
    ∃ of, png.nextFrame bytes = .ok of ∧ of.bitDepth = .eight ∧ FromFrame of d := by
  unfold decodeBytes at h
  obtain ⟨chunk, hchunk, h⟩ := except_bind_ok.mp h
  rw [pngProfileChunk, firstProfile_policy, unwrap_ok] at hchunk
  cases chunk with
  | some chunk => cases h
  | none =>
    obtain ⟨size, -, h⟩ := except_bind_ok.mp h
    obtain ⟨of, hof, h⟩ := except_bind_ok.mp h
    rw [mapError_ok] at hof
    by_cases hsize : of.width ≠ size.1 ∨ of.height ≠ size.2
    · rw [if_pos hsize] at h
      cases h
    by_cases hdepth : of.bitDepth ≠ .eight
    · rw [if_neg hsize, if_pos hdepth] at h
      cases h
    rw [if_neg hsize, if_neg hdepth] at h
    rw [ne_eq, ne_eq, not_or, not_not, not_not] at hsize
    rw [← hsize.1, ← hsize.2] at h
    exact ⟨Option.some.inj hchunk, of, hof, not_not.mp hdepth, frameSamples_ok h⟩

/-- **What the strict decode accepts, the tolerant one decodes to the same image.** -/
theorem decodeBytes_tolerates {png : PngCrate} {bytes : ByteSlice} {d : Decoded F}
    (h : decodeBytes png bytes false = .ok d) : decodeBytes png bytes true = .ok d := by
  have hstrict := (decodeBytes_ok h).1
  have htolerant : profilePolicy true (chunks (bytes.data.drop 8)) = none := by
    unfold profilePolicy at hstrict ⊢
    by_cases hicc : hasChunk Profile.iCCP.bytes (chunks (bytes.data.drop 8)) = true
    · rw [if_pos hicc] at hstrict
      cases hstrict
    · rw [if_neg hicc, if_pos rfl]
  unfold decodeBytes at h ⊢
  rw [pngProfileChunk, firstProfile_policy, hstrict] at h
  rw [pngProfileChunk, firstProfile_policy, htolerant]
  exact h

/-- The decoding of an 8-bit frame. -/
theorem decodeBytes_frame {png : PngCrate} {bytes : ByteSlice} {of : Frame} (tolerate : Bool)
    (hpolicy : profilePolicy tolerate (chunks (bytes.data.drop 8)) = none)
    (hinfo : png.readInfo bytes = .ok (of.width, of.height)) (hframe : png.nextFrame bytes = .ok of)
    (hdepth : of.bitDepth = .eight) :
    (decodeBytes png bytes tolerate : Except Fault (Decoded F)) =
      frameSamples of of.width of.height := by
  unfold decodeBytes
  rw [pngProfileChunk, firstProfile_policy, hpolicy, hinfo, hframe]
  dsimp only [unwrap, Except.mapError, bind, Except.bind]
  rw [if_neg (by simp), if_neg (by simp [hdepth])]

/-- The samples of an RGB frame. -/
theorem frameSamples_rgb {w h : Nat} {buf r g b : List UInt8}
    (hr : bytePlane buf 3 0 (w * h) = some r) (hg : bytePlane buf 3 1 (w * h) = some g)
    (hb : bytePlane buf 3 2 (w * h) = some b) :
    frameSamples ⟨w, h, .eight, .rgb, buf⟩ w h =
      .ok (⟨w, h, (r ++ g ++ b).map byteSample, none⟩ : Decoded F) := by
  dsimp only [frameSamples]
  rw [hr, hg, hb]
  rfl

end Ssimulacra2
