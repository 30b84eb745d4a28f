/-
  File:      Ssimulacra2/Png/Transparency.lean
  Subject:   What becomes of the transparency of a PNG.

  A PNG carries transparency in an alpha channel or in a `tRNS` chunk (`carriesTransparency`), and
  the reference decoder gives either of them an alpha plane (`info_fn` in `apng.cc`). The crate hands
  out the samples in the colour type of the file, and the scan knows no `tRNS`: a grey or RGB image
  with a `tRNS` chunk is decoded without alpha. `transparencyKept_iff` says that these images, and no
  others, lose their transparency.
-/
import Ssimulacra2.Png.Neutral

namespace Ssimulacra2

open Fallible Prog

variable {F : Type} {D : Type} [F32 F] [F64 D] [Convert F D]

/-! ## 1. The transparency of a file -/

/-- `b"tRNS"`. -/
def trnsName : List UInt8 := [116, 82, 78, 83]

/-- The colour type of the header, the tenth byte of the first chunk. -/
def headerColor (bytes : ByteSlice) : Option ColorType :=
  match chunks (bytes.data.drop 8) with
  | [] => none
  | c :: _ => if c.type = ihdrName then c.data[9]?.bind fun b => ColorType.ofCode b.toNat else none

/-- There is a `tRNS` chunk. -/
def hasTrns (bytes : ByteSlice) : Bool := hasChunk trnsName (chunks (bytes.data.drop 8))

/-- The file has an alpha channel or a `tRNS` chunk. -/
def carriesTransparency (bytes : ByteSlice) : Bool :=
  (headerColor bytes).any ColorType.hasAlpha || hasTrns bytes

/-- **The identity transformation of the crate**: a frame has the colour type of the file. -/
def PngCrate.Identity (png : PngCrate) : Prop :=
  ∀ bytes of, png.nextFrame bytes = .ok of → headerColor bytes = some of.colorType

/-- **The reference decoder**, as far as transparency goes. -/
structure ReferenceDecoder where
  /-- The decoded image has an alpha plane. -/
  hasAlpha : ByteSlice → Prop
  /-- The alpha of pixel `i` is below one. -/
  nonOpaque : ByteSlice → Nat → Prop

/-- What is known of it: an alpha plane comes from an alpha channel or a `tRNS` chunk, a pixel is not
    opaque by its alpha plane, and the alpha of an 8-bit RGBA pixel is its fourth sample. -/
structure ReferenceDecoder.Documented (ref : ReferenceDecoder) (png : PngCrate) : Prop where
  alpha : ∀ bytes, ref.hasAlpha bytes → carriesTransparency bytes = true
  plane : ∀ bytes i, ref.nonOpaque bytes i → ref.hasAlpha bytes
  rgba : ∀ bytes of i, png.nextFrame bytes = .ok of → of.bitDepth = .eight →
    of.colorType = .rgba → ref.nonOpaque bytes i →
      i < of.width * of.height ∧ ∃ v, of.buf[4 * i + 3]? = some v ∧ v ≠ 255

/-! ## 2. What is asked of the commands -/

/-- The two-background pass over an original with alpha: the worst score of the two. -/
def worstOfBackgrounds (D : Type) [F64 D] [Convert F D] (E : Env F) (cbrtAdd : F → F → F)
    (a b : Decoded F) : Command F D := do
  let s0 ← scorePair D E cbrtAdd a b (F32.lit 0.1)
  let s1 ← scorePair D E cbrtAdd a b (F32.lit 0.9)
  pure (F64.min s0 s1)

/-- The batch engines reject an original: the message of its size, else that of its alpha. -/
structure BatchRejects (D : Type) [F64 D] [Convert F D] (files : Files F) (origPath : String)
    (d : Decoded F) : Prop where
  cached : ∀ E variants s, (scoreBatchPaths D E files origPath variants s).result =
    .error (.message (if d.w < 8 ∨ d.h < 8 then belowMinimumErr else batchOrigAlphaErr))
  uncached : ∀ E variants s, (scoreNocachePaths D E files origPath variants s).result =
    .error (.message (if d.w < 8 ∨ d.h < 8 then belowMinimumErr else batchOrigAlphaErr))
  fallback : ∀ cbrtAdd variants, scoreFallback D files cbrtAdd origPath variants =
    .error (.message (if d.w < 8 ∨ d.h < 8 then belowMinimumErr else batchOrigAlphaErr))

/-- **Transparency is not ignored**, for one PNG: a decoded image is without alpha when the file
    carries no transparency; `normalize` writes nothing for a file with a pixel that is not opaque;
    an original with alpha is scored over two backgrounds by the single-pair command, and rejected by
    the batch engines. -/
structure TransparencyKept (F D : Type) [F32 F] [F64 D] [Convert F D] (png : PngCrate)
    (ref : ReferenceDecoder) (bytes : ByteSlice) : Prop where
  decoded : ∀ tolerate (d : Decoded F), decodeBytes png bytes tolerate = .ok d → d.alpha = none →
    carriesTransparency bytes = false
  normalized : (∃ i, ref.nonOpaque bytes i) → ∀ M : NormEnv F, M.png = png →
    (∀ v, M.isOne v = true ↔ v = ofNat 1) →
    (∀ outDir inp s, s.disk (M.host.resolve inp) = some bytes →
      (normalizeOne M outDir inp s).result ≠ .ok () ∧
        (normalizeOne M outDir inp s).state.disk = s.disk) ∧
    ∀ args disk, ∀ inp ∈ (normalizeArgs args (none, [])).2,
      disk (M.host.resolve inp) = some bytes →
      (runNormalize M args disk).1.code ≠ 0
  scored : ref.hasAlpha bytes → ∀ (d b : Decoded F) (host : Host) disk orig dist,
    disk (host.resolve orig) = some bytes → decodeBytes png bytes false = .ok d →
    decodePng png host disk dist = .ok b → d.w = b.w → d.h = b.h → 8 ≤ d.w → 8 ≤ d.h →
    ∀ (E : Env F) cbrtAdd forceCpu forceGpu created,
      pairScore D E cbrtAdd png host disk forceCpu forceGpu created orig dist =
        unwrap ((worstOfBackgrounds D E cbrtAdd d b
          (routedContext forceCpu forceGpu d.w d.h created)).map Prod.fst)
  batched : ref.hasAlpha bytes → ∀ d : Decoded F, decodeBytes png bytes false = .ok d →
    ∀ files origPath, files.decodePng origPath = .ok d → BatchRejects D files origPath d

/-! ## 3. Images with alpha -/

section Alpha

variable {E : Env F} {cbrtAdd : F → F → F} {files : Files F} {origPath : String} {d : Decoded F}

/-- **The batch engines reject an original with alpha** before they touch a device. -/
theorem batchRejects_alpha (h : files.decodePng origPath = .ok d) (ha : d.alpha.isSome = true) :
    BatchRejects D files origPath d := by
  refine ⟨fun E variants s => ?_, fun E variants s => ?_, fun cbrtAdd variants => ?_⟩
  · unfold scoreBatchPaths
    rw [h]
    show ((if d.w < 8 ∨ d.h < 8 then fail (.message belowMinimumErr) else _ : Job F _) s).result = _
    by_cases hsize : d.w < 8 ∨ d.h < 8
    · rw [if_pos hsize, if_pos hsize]
      rfl
    · rw [if_neg hsize, if_neg hsize, if_pos ha]
      rfl
  · unfold scoreNocachePaths
    rw [h]
    show ((if d.w < 8 ∨ d.h < 8 then fail (.message belowMinimumErr) else _ : Job F _) s).result = _
    by_cases hsize : d.w < 8 ∨ d.h < 8
    · rw [if_pos hsize, if_pos hsize]
      rfl
    · rw [if_neg hsize, if_neg hsize, if_pos ha]
      rfl
  · unfold scoreFallback
    rw [h]
    show (if d.w < 8 ∨ d.h < 8 then Except.error (Fault.message belowMinimumErr) else _) = _
    by_cases hsize : d.w < 8 ∨ d.h < 8
    · rw [if_pos hsize, if_pos hsize]
    · rw [if_neg hsize, if_neg hsize, if_pos ha]

/-- **The single-pair command scores an original with alpha over two backgrounds.** -/
theorem scoreImages_alpha {a b : Decoded F} (ha : a.alpha.isSome = true) :
    scoreImages D E cbrtAdd a b = worstOfBackgrounds D E cbrtAdd a b := by
  unfold scoreImages worstOfBackgrounds
  rw [if_pos ha]

end Alpha

section Kept

variable {png : PngCrate} {ref : ReferenceDecoder} {bytes : ByteSlice} {tolerate : Bool} {d : Decoded F}

/-- A decoded image has alpha exactly when the colour type of its file is RGBA. -/
theorem alpha_isSome_iff (hid : png.Identity) (hd : decodeBytes png bytes tolerate = .ok d) :
    d.alpha.isSome = true ↔ headerColor bytes = some .rgba := by
  obtain ⟨-, of, hof, -, hfrom⟩ := decodeBytes_ok hd
  rw [hid bytes of hof]
  rcases hfrom.alpha with ⟨hc, as, ha, -⟩ | ⟨hc, ha⟩
  · rw [hc, ha]
    exact ⟨fun _ => rfl, fun _ => rfl⟩
  · rw [ha]
    refine ⟨nofun, fun h => ?_⟩
    rcases hc with hc | hc
    · rw [hc] at h
      cases h
    · rw [hc] at h
      cases h

/-- **What a decoded image without alpha says of its file**: no alpha channel. -/
theorem carriesTransparency_of_decoded (hid : png.Identity)
    (hd : decodeBytes png bytes tolerate = .ok d) (ha : d.alpha = none) :
    carriesTransparency bytes = hasTrns bytes := by
  obtain ⟨-, of, hof, -, hfrom⟩ := decodeBytes_ok hd
  unfold carriesTransparency
  rw [hid bytes of hof, Option.any_some]
  rcases hfrom.alpha with ⟨-, as, hsome, -⟩ | ⟨hc | hc, -⟩
  · rw [hsome] at ha
    cases ha
  · rw [hc]
    rfl
  · rw [hc]
    rfl

/-- An image of a file with transparency, which is RGBA or has no `tRNS` chunk, has alpha. -/
theorem alpha_of_carriesTransparency (hid : png.Identity)
    (hd : decodeBytes png bytes tolerate = .ok d)
    (hkept : headerColor bytes = some .rgba ∨ hasTrns bytes = false)
    (hc : carriesTransparency bytes = true) : d.alpha.isSome = true := by
  cases ha : d.alpha with
  | some as => rfl
  | none =>
    rw [carriesTransparency_of_decoded hid hd ha] at hc
    rcases hkept with hrgba | htrns
    · have hsome := (alpha_isSome_iff hid hd).mpr hrgba
      rw [ha] at hsome
      cases hsome
    · rw [hc] at htrns
      cases htrns

/-- **An image that may be rewritten comes from an opaque file**: its alpha, if it has one, is 255
    everywhere. -/
theorem opaque_of_rewritable (B : Binary32 F) (hid : png.Identity) (href : ref.Documented png)
    {isOne : F → Bool} (hone : ∀ v, isOne v = true ↔ v = ofNat 1)
    (hd : decodeBytes png bytes tolerate = .ok d)
    (hkept : headerColor bytes = some .rgba ∨ hasTrns bytes = false)
    (hr : rewritable isOne d = true) (i : Nat) : ¬ref.nonOpaque bytes i := by
  intro hi
  have hsome := alpha_of_carriesTransparency hid hd hkept (href.alpha _ (href.plane _ _ hi))
  obtain ⟨-, of, hof, hdepth, hfrom⟩ := decodeBytes_ok hd
  rcases hfrom.alpha with ⟨hc, as, ha, hplane⟩ | ⟨-, ha⟩
  swap
  · rw [ha] at hsome
    cases hsome
  obtain ⟨hlt, v, hv, hne⟩ := href.rgba bytes of i hof hdepth hc hi
  rw [← hfrom.w_eq, ← hfrom.h_eq] at hlt
  have hmem : v ∈ as := List.mem_of_getElem? ((bytePlane_get hplane hlt).trans hv)
  unfold rewritable at hr
  rw [ha] at hr
  have hv1 := (hone _).mp (List.all_eq_true.mp hr _ (List.mem_map_of_mem hmem))
  exact hne (UInt8.toNat_inj.mp (B.eq_255_of_byteValue_eq_one v.toNat_lt hv1))

/-- **A file with a pixel that is not opaque has no normal form.** -/
theorem no_normalForm (B : Binary32 F) (hid : png.Identity) (href : ref.Documented png)
    (hkept : headerColor bytes = some .rgba ∨ hasTrns bytes = false)
    (hclear : ∃ i, ref.nonOpaque bytes i) {M : NormEnv F} (hM : M.png = png)
    (hone : ∀ v, M.isOne v = true ↔ v = ofNat 1) {disk : Disk} {inp : String}
    (hfile : disk (M.host.resolve inp) = some bytes) : normalForm M disk inp = none := by
  have hingest : (decodePngIngest M.png M.host disk inp : Except Fault (Decoded F)) =
      decodeBytes M.png bytes true := by
    unfold decodePngIngest decodePngOpts Disk.read
    rw [hfile]
    rfl
  unfold normalForm
  rw [hingest]
  cases hd : (decodeBytes M.png bytes true : Except Fault (Decoded F)) with
  | error e => rfl
  | ok d =>
    obtain ⟨i, hi⟩ := hclear
    rw [hM] at hd
    exact if_neg fun hr => opaque_of_rewritable B hid href hone hd hkept hr i hi

/-- A command that exits with 0 has an output directory. -/
theorem outDir_of_code {M : NormEnv F} {args : List String} {disk : Disk}
    (hcode : (runNormalize M args disk).1.code = 0) :
    ∃ outDir, (normalizeArgs args (none, [])).1 = some outDir := by
  unfold runNormalize at hcode
  rcases hargs : normalizeArgs args (none, []) with ⟨_ | outDir, inputs⟩
  · rw [hargs] at hcode
    cases hcode
  · exact ⟨outDir, rfl⟩

/-- A file that was decoded is on the disk. -/
theorem decodePng_ok {host : Host} {disk : Disk} {path : String}
    (h : decodePng png host disk path = .ok d) :
    ∃ file, disk (host.resolve path) = some file ∧ decodeBytes png file false = .ok d := by
  obtain ⟨file, hread, h⟩ := except_bind_ok.mp h
  rw [mapError_ok] at hread
  refine ⟨file, ?_, h⟩
  unfold Disk.read at hread
  cases hfile : disk (host.resolve path) with
  | none =>
    rw [hfile] at hread
    cases hread
  | some bytes =>
    rw [hfile] at hread
    cases hread
    rfl

end Kept

/-! ## 4. The images that keep their transparency -/

/-- **When transparency is kept**: of a PNG that is decoded, exactly when it is RGBA or has no `tRNS`
    chunk. -/
theorem transparencyKept_iff (D : Type) [F64 D] [Convert F D] (B : Binary32 F) {png : PngCrate}
    (hid : png.Identity) {ref : ReferenceDecoder} (href : ref.Documented png) {bytes : ByteSlice}
    (hacc : ∃ tolerate, ∃ d : Decoded F, decodeBytes png bytes tolerate = .ok d) :
    TransparencyKept F D png ref bytes ↔
      headerColor bytes = some .rgba ∨ hasTrns bytes = false := by
  constructor
  · intro h
    obtain ⟨tolerate, d, hd⟩ := hacc
    cases ha : d.alpha with
    | some as => exact Or.inl ((alpha_isSome_iff hid hd).mp (by rw [ha]; rfl))
    | none =>
      have hc := h.decoded tolerate d hd ha
      rw [carriesTransparency_of_decoded hid hd ha] at hc
      exact Or.inr hc
  · intro hkept
    refine ⟨fun tolerate d hd ha => ?_, fun hclear M hM hone => ⟨fun outDir inp s hfile => ?_,
      fun args disk inp hinp hfile hcode => ?_⟩, fun hal d b host disk orig dist hfile hd hb hw hh hw8
        hh8 E cbrtAdd forceCpu forceGpu created => ?_, fun hal d hd files origPath hdec => ?_⟩
    · rw [← Bool.not_eq_true]
      intro hc
      have hsome := alpha_of_carriesTransparency hid hd hkept hc
      rw [ha] at hsome
      cases hsome
    · have hnone := no_normalForm B hid href hkept hclear hM hone hfile
      have hcases : Post (normalizeOne M outDir inp) s _ := normalizeOne_cases inp s
      rcases hcases with ⟨name, out, hwr, -⟩ | ⟨-, hdisk, hne⟩
      · cases hnone.symm.trans hwr.form
      · exact ⟨hne, hdisk⟩
    · obtain ⟨outDir, hout⟩ := outDir_of_code hcode
      obtain ⟨dec, name, out, hrw, -⟩ := runNormalize_ok (Prod.ext hout rfl) hcode inp hinp
      have hnone := no_normalForm B hid href hkept hclear hM hone hfile
      cases hnone.symm.trans hrw.normalForm_eq
    · obtain ⟨file, hdist, hb⟩ := decodePng_ok hb
      rw [pairScore_decoded hfile hdist hd hb hw hh hw8 hh8,
        scoreImages_alpha (alpha_of_carriesTransparency hid hd hkept (href.alpha _ hal))]
    · exact batchRejects_alpha hdec
        (alpha_of_carriesTransparency hid hd hkept (href.alpha _ hal))

/-! ## 5. A file that loses its transparency -/

/-- Eight black pixels by eight, in RGB, and a `tRNS` chunk that makes black transparent. -/
def trnsPng : ByteSlice where
  data := [
    137, 80, 78, 71, 13, 10, 26, 10, 0, 0, 0, 13, 73, 72, 68, 82, 0, 0, 0, 8, 0, 0, 0, 8, 8, 2,
    0, 0, 0, 75, 109, 41, 220, 0, 0, 0, 6, 116, 82, 78, 83, 0, 0, 0, 0, 0, 0, 110, 166, 7, 145,
    0, 0, 0, 12, 73, 68, 65, 84, 120, 218, 99, 96, 24, 30, 0, 0, 0, 200, 0, 1, 147, 189, 165,
    142, 0, 0, 0, 0, 73, 69, 78, 68, 174, 66, 96, 130]
  length_lt := by decide

/-- A crate that knows it, and the opaque picture. -/
def trnsCrate : PngCrate :=
  tableCrate [(blackPng, blackFrame), (trnsPng, blackFrame), (opaquePng, opaqueFrame)]

/-- The samples that the `tRNS` chunk makes transparent: the low bytes of its entries. -/
def transparentKey (bytes : ByteSlice) : Option (List UInt8) :=
  ((chunks (bytes.data.drop 8)).find? fun c => c.type = trnsName).map fun c =>
    (List.range (c.data.length / 2)).map fun i => c.data.getD (2 * i + 1) 0

/-- A reference decoder that expands `tRNS` to alpha, on 8-bit files without a palette. -/
def expandingReference (png : PngCrate) : ReferenceDecoder where
  hasAlpha bytes := carriesTransparency bytes = true
  nonOpaque bytes i := carriesTransparency bytes = true ∧
    ∃ of, png.nextFrame bytes = .ok of ∧ i < of.width * of.height ∧
      if of.colorType = .rgba then ∃ v, of.buf[4 * i + 3]? = some v ∧ v ≠ 255
      else transparentKey bytes =
        some ((of.buf.drop (of.colorType.samples * i)).take of.colorType.samples)

theorem expandingReference_documented (png : PngCrate) :
    (expandingReference png).Documented png := by
  refine ⟨fun bytes h => h, fun bytes i h => h.1, fun bytes of i hof _ hc h => ?_⟩
  obtain ⟨-, of', hof', hi, hv⟩ := h
  cases hof.symm.trans hof'
  rw [if_pos hc] at hv
  exact ⟨hi, hv⟩

theorem trns_chunks : chunks (trnsPng.data.drop 8) =
    [⟨ihdrName, [0, 0, 0, 8, 0, 0, 0, 8, 8, 2, 0, 0, 0]⟩, ⟨trnsName, [0, 0, 0, 0, 0, 0]⟩,
      ⟨idatName, [120, 218, 99, 96, 24, 30, 0, 0, 0, 200, 0, 1]⟩, ⟨iendName, []⟩] := by
  rw [chunks_some rfl, if_neg (by decide), chunks_some rfl, if_neg (by decide), chunks_some rfl,
    if_neg (by decide), chunks_some rfl, if_pos (by decide)]
  rfl

theorem trns_decoded (tolerate : Bool) :
    decodeBytes trnsCrate trnsPng tolerate = .ok (Decoded.uniform 0 : Decoded F) := by
  refine uniform_decoded ?_ rfl rfl
  rw [trns_chunks]
  cases tolerate <;> decide

/-- The crate knows the colour types of its files. -/
theorem trnsCrate_identity : trnsCrate.Identity := by
  intro bytes of hof
  have hknown : ∀ e ∈ [(blackPng, blackFrame), (trnsPng, blackFrame), (opaquePng, opaqueFrame)],
      headerColor e.1 = some e.2.colorType := by
    simp only [List.forall_mem_cons]
    unfold headerColor
    rw [black_chunks, trns_chunks, rgba_chunks]
    exact ⟨rfl, rfl, rfl, fun _ h => absurd h List.not_mem_nil⟩
  unfold trnsCrate tableCrate at hof
  dsimp only at hof
  cases hfind : [(blackPng, blackFrame), (trnsPng, blackFrame), (opaquePng, opaqueFrame)].find?
    fun e => e.1.data = bytes.data with
  | none =>
    rw [hfind] at hof
    cases hof
  | some e =>
    rw [hfind] at hof
    cases hof
    have hcolor := hknown e (List.mem_of_find?_eq_some hfind)
    have hdata := List.find?_some hfind
    have hdata : e.1.data = bytes.data := of_decide_eq_true hdata
    unfold headerColor at hcolor ⊢
    rw [← hdata]
    exact hcolor

/-- It encodes the black picture without the `tRNS` chunk. -/
theorem trnsCrate_encode : trnsCrate.encode 8 8 (.replicate 192 0) = (blackPng, none) := by
  have hfind : [(blackPng, blackFrame), (trnsPng, blackFrame), (opaquePng, opaqueFrame)].find?
      (fun e => e.2 = ⟨8, 8, .eight, .rgb, .replicate 192 0⟩) = some (blackPng, blackFrame) :=
    List.find?_cons_of_pos (decide_eq_true rfl)
  unfold trnsCrate tableCrate
  dsimp only
  rw [hfind]

/-- The crate on a machine without errors, over exact arithmetic. -/
noncomputable def trnsEnv : NormEnv ℝ := { sampleEnv with png := trnsCrate }

/-- **Transparency is lost**: every pixel of the file is transparent, and `normalize` rewrites it as
    the opaque black picture. -/
theorem transparencyKept_lost :
    trnsCrate.Identity ∧ (expandingReference trnsCrate).Documented trnsCrate ∧
    decodeBytes trnsCrate trnsPng false = .ok (Decoded.uniform 0 : Decoded ℝ) ∧
    (expandingReference trnsCrate).nonOpaque trnsPng 0 ∧ NormalizedTo trnsEnv trnsPng blackPng ∧
    ¬TransparencyKept ℝ ℝ trnsCrate (expandingReference trnsCrate) trnsPng := by
  have hcarries : carriesTransparency trnsPng = true := by
    unfold carriesTransparency headerColor hasTrns
    rw [trns_chunks]
    decide
  have hclear : (expandingReference trnsCrate).nonOpaque trnsPng 0 := by
    refine ⟨hcarries, blackFrame, rfl, by decide, ?_⟩
    rw [if_neg (by decide)]
    unfold transparentKey
    rw [trns_chunks]
    decide
  have hpng : trnsEnv.png = trnsCrate := rfl
  have hform : normalForm trnsEnv (fun _ => some trnsPng) "x.png" = some (blackPng, none) :=
    normalForm_uniform exactBinary32 rfl (hpng ▸ trns_decoded true) (hpng ▸ trnsCrate_encode)
  have hrun : NormalizedTo trnsEnv trnsPng blackPng := NormalizedTo.single
    (show normalizeArgs ["--out", "out", "x.png"] (none, []) = (some "out", ["x.png"]) from rfl) rfl
    rfl ⟨hform, (by decide : fileName "x.png" = some "x.png"), List.not_mem_nil, rfl⟩
  refine ⟨trnsCrate_identity, expandingReference_documented _, trns_decoded false, hclear, hrun,
    fun h => ?_⟩
  have hno := h.decoded false (Decoded.uniform 0) (trns_decoded false) rfl
  rw [hcarries] at hno
  cases hno

/-- The opaque picture keeps its alpha plane. -/
theorem transparencyKept_rgba :
    TransparencyKept ℝ ℝ trnsCrate (expandingReference trnsCrate) opaquePng := by
  have hrgba : headerColor opaquePng = some .rgba := by
    unfold headerColor
    rw [rgba_chunks]
    rfl
  have hacc : ∃ tolerate, ∃ d : Decoded ℝ, decodeBytes trnsCrate opaquePng tolerate = .ok d :=
    ⟨true, Decoded.opaquely, sample_rgba true⟩
  exact (transparencyKept_iff ℝ exactBinary32 trnsCrate_identity (expandingReference_documented _)
    hacc).mpr (Or.inl hrgba)

end Ssimulacra2
