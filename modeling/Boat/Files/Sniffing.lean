import Boat.Files.Uploads

/-!
# Files: HEIF

The contents that are found to be of HEIF begin with a box of the type `ftyp`, which has its size, a
major brand, a version, and compatible brands up to its end (`FileTypeBox`).

* `detectImageContentType_heif_iff`: those contents are of HEIF that begin with such a box of an
  accepted brand, and with neither of the other signatures, whatever comes after the box.
-/

namespace Boat.Files

/-! ## Boxes -/

/-- The size of the box at the front of the content. -/
def boxSize (content : Bytes) : ℕ := intFromBytes (slice 0 4 content)

/-- The content begins with a box of its type, in which there is one of the brands: the major brand,
    at 8, or a compatible one, at 16, 20, ..., that ends in the box. -/
structure FileTypeBox (brands : List Bytes) (content : Bytes) : Prop where
  length : 16 ≤ content.length
  type : slice 4 8 content = ascii "ftyp"
  size : 16 ≤ boxSize content ∧ boxSize content ≤ content.length
  brand : slice 8 12 content ∈ brands ∨
    ∃ k, 16 + 4 * k + 4 ≤ boxSize content ∧ slice (16 + 4 * k) (16 + 4 * k + 4) content ∈ brands

/-- Where the compatible brands of a box are. -/
theorem mem_compatible {size i : ℕ} (hsize : 16 ≤ size) :
    i ∈ List.range' 16 ((size - 16) / 4) 4 ↔ ∃ k, 16 + 4 * k + 4 ≤ size ∧ i = 16 + 4 * k := by
  rw [List.mem_range']
  constructor
  · rintro ⟨k, hk, rfl⟩
    exact ⟨k, by omega, rfl⟩
  · rintro ⟨k, hk, rfl⟩
    exact ⟨k, by omega, rfl⟩

/-- What comes after a part of the content is not in its slices. -/
theorem slice_append {start stop : ℕ} {content tail : Bytes} (h : stop ≤ content.length) :
    slice start stop (content ++ tail) = slice start stop content := by
  rw [slice, slice, List.take_append_of_le_length h]

theorem isPrefixOf_append {signature content : Bytes} (h : signature.length ≤ content.length)
    (tail : Bytes) :
    signature.isPrefixOf (content ++ tail) = signature.isPrefixOf content := by
  rw [Bool.eq_iff_iff, List.isPrefixOf_iff_prefix, List.isPrefixOf_iff_prefix]
  constructor
  · exact fun hprefix => List.prefix_of_prefix_length_le hprefix (List.prefix_append _ _) h
  · exact fun hprefix => hprefix.trans (List.prefix_append _ _)

/-! ## Detection -/

/-- The brands that are compared are those of the box. -/
theorem any_brands_iff {content : Bytes} (hsize : 16 ≤ boxSize content) :
    ((slice 8 12 content :: (List.range' 16 ((boxSize content - 16) / 4) 4).map fun i =>
      slice i (i + 4) content).any
      (· ∈ heifCompatibleBrands)) = true ↔
    slice 8 12 content ∈ heifCompatibleBrands ∨
      ∃ k, 16 + 4 * k + 4 ≤ boxSize content ∧
      slice (16 + 4 * k) (16 + 4 * k + 4) content ∈ heifCompatibleBrands := by
  simp only [List.any_cons, Bool.or_eq_true, decide_eq_true_eq, List.any_map, List.any_eq_true,
    Function.comp_apply, mem_compatible hsize]
  refine or_congr_right ⟨?_, ?_⟩
  · rintro ⟨i, ⟨k, hk, rfl⟩, hbrand⟩
    exact ⟨k, hk, hbrand⟩
  · rintro ⟨k, hk, hbrand⟩
    exact ⟨_, ⟨k, hk, rfl⟩, hbrand⟩

/-- Contents of HEIF begin with a box of an accepted brand. -/
theorem detect_heif_iff (content : Bytes) : detectImageContentType content = some "image/heif" ↔
    ¬pngSignature <+: content ∧ ¬jpegSignature <+: content ∧
    FileTypeBox heifCompatibleBrands content := by
  rw [← List.isPrefixOf_iff_prefix, ← List.isPrefixOf_iff_prefix]
  simp only [detectImageContentType]
  rw [← boxSize]
  constructor
  · intro h
    split at h
    · exact absurd h (by decide)
    split at h
    · exact absurd h (by decide)
    next hpng hjpeg =>
    split at h
    · next htype =>
      split at h
      · next hsize =>
        split at h
        · next hbrand =>
            exact ⟨hpng, hjpeg, htype.1, htype.2, hsize, (any_brands_iff hsize.1).1 hbrand⟩
        · cases h
      · cases h
    · cases h
  · rintro ⟨hpng, hjpeg, hbox⟩
    rw [if_neg hpng, if_neg hjpeg, if_pos ⟨hbox.length, hbox.type⟩, if_pos hbox.size,
      if_pos ((any_brands_iff hbox.size.1).2 hbox.brand)]

/-- What comes after a box does not change its brands. -/
theorem fileTypeBox_append {brands : List Bytes} {box tail : Bytes} (hlength : 16 ≤ box.length)
    (hsize : boxSize box = box.length) : FileTypeBox brands (box ++ tail) ↔
    FileTypeBox brands box := by
  have hsize' : boxSize (box ++ tail) = boxSize box := by
    rw [boxSize, slice_append (by omega), boxSize]
  have htype : slice 4 8 (box ++ tail) = slice 4 8 box := slice_append (by omega)
  have hmajor : slice 8 12 (box ++ tail) = slice 8 12 box := slice_append (by omega)
  have hcompatible : ∀ k, 16 + 4 * k + 4 ≤ boxSize box →
      slice (16 + 4 * k) (16 + 4 * k + 4) (box ++ tail) = slice (16 + 4 * k) (16 + 4 * k + 4) box :=
    fun k hk => slice_append (hk.trans hsize.le)
  have hexists : (∃ k, 16 + 4 * k + 4 ≤ boxSize box ∧
      slice (16 + 4 * k) (16 + 4 * k + 4) (box ++ tail) ∈ brands) ↔
        ∃ k, 16 + 4 * k + 4 ≤ boxSize box ∧ slice (16 + 4 * k) (16 + 4 * k + 4) box ∈ brands :=
    exists_congr fun k => and_congr_right fun hk => by rw [hcompatible k hk]
  constructor
  · intro h
    have hbrand := h.brand
    rw [hsize', hmajor, hexists] at hbrand
    exact ⟨hlength, htype ▸ h.type, ⟨hsize ▸ hlength, hsize.le⟩, hbrand⟩
  · intro h
    have hle : box.length ≤ (box ++ tail).length := by simp
    refine ⟨hlength.trans hle, htype.trans h.type, hsize' ▸ ⟨h.size.1, h.size.2.trans hle⟩, ?_⟩
    rw [hsize', hmajor, hexists]
    exact h.brand

/-- Where a box ends in the content, what comes after it does not change the answer. -/
theorem detect_append {box tail : Bytes} (hlength : 16 ≤ box.length)
    (hsize : boxSize box = box.length) :
    detectImageContentType (box ++ tail) = detectImageContentType box := by
  have hpng :=
    isPrefixOf_append
      (show pngSignature.length ≤ box.length from (by decide : 8 ≤ 16).trans hlength) tail
  have hjpeg :=
    isPrefixOf_append
      (show jpegSignature.length ≤ box.length from (by decide : 3 ≤ 16).trans hlength) tail
  by_cases hpng' : pngSignature.isPrefixOf box = true
  · rw [detectImageContentType, detectImageContentType, hpng, if_pos hpng', if_pos hpng']
  by_cases hjpeg' : jpegSignature.isPrefixOf box = true
  · rw [detectImageContentType, detectImageContentType, hpng, hjpeg, if_neg hpng', if_neg hpng',
      if_pos hjpeg', if_pos hjpeg']
  -- Without a signature, the answer is HEIF or none.
  have hcases : ∀ content : Bytes, ¬pngSignature.isPrefixOf content = true →
    ¬jpegSignature.isPrefixOf content = true →
      detectImageContentType content = some "image/heif" ∨ detectImageContentType content = none := by
    intro content hpng hjpeg
    simp only [detectImageContentType, if_neg hpng, if_neg hjpeg]
    split
    · split
      · split
        · exact .inl rfl
        · exact .inr rfl
      · exact .inr rfl
    · exact .inr rfl
  have hiff : detectImageContentType (box ++ tail) = some "image/heif" ↔
      detectImageContentType box = some "image/heif" := by
    rw [detect_heif_iff, detect_heif_iff, fileTypeBox_append hlength hsize]
    simp only [← List.isPrefixOf_iff_prefix, hpng, hjpeg]
  rcases hcases (box ++ tail) (hpng ▸ hpng') (hjpeg ▸ hjpeg') with h | h
  · rw [h, hiff.1 h]
  · rcases hcases box hpng' hjpeg' with h' | h'
    · rw [hiff.2 h', h']
    · rw [h, h']

/-- What is declared as HEIC or HEIF is found to be of HEIF. -/
theorem matches_heif_iff {contentType : String} (hdeclared : contentType ∈ heifContentTypes)
    (content : Bytes) :
    matchesImageContentType contentType content = true ↔
    detectImageContentType content = some "image/heif" := by
  have hne : ∀ contentType ∈ heifContentTypes, "image/png" ≠ contentType ∧
      "image/jpeg" ≠ contentType := by decide
  obtain ⟨hpng, hjpeg⟩ := hne contentType hdeclared
  rw [matchesImageContentType]
  rcases hdetected : detectImageContentType content with - | detected
  · simp
  · have hmem := detectImageContentType_mem hdetected
    simp only [List.mem_cons, List.not_mem_nil, or_false] at hmem
    rcases hmem with rfl | rfl | rfl
    · simp [heifContentTypes, hpng]
    · simp [heifContentTypes, hjpeg]
    · have hheif : "image/heif" ∈ heifContentTypes := by decide
      refine iff_of_true ?_ rfl
      simp [hheif, hdeclared]

/-- The contents of HEIF are those that begin with a box of an accepted brand, whatever comes after
    it, and with neither of the other signatures; as HEIC or HEIF, they and no others may be
    declared. -/
theorem detectImageContentType_heif_iff (content : Bytes) :
    (detectImageContentType content = some "image/heif" ↔
      ¬pngSignature <+: content ∧ ¬jpegSignature <+: content ∧
      FileTypeBox heifCompatibleBrands content) ∧
    (∀ box tail : Bytes, content = box ++ tail → 16 ≤ box.length → boxSize content = box.length →
      ∀ tail' : Bytes, detectImageContentType (box ++ tail') = detectImageContentType content) ∧
    ∀ contentType ∈ heifContentTypes,
      matchesImageContentType contentType content = true ↔
      detectImageContentType content = some "image/heif" := by
  refine ⟨detect_heif_iff content, ?_, fun contentType hdeclared =>
    matches_heif_iff hdeclared content⟩
  rintro box tail rfl hlength hsize tail'
  have hsize' : boxSize box = box.length := by
    rw [← hsize, boxSize, boxSize, slice_append (by omega)]
  rw [detect_append hlength hsize', detect_append hlength hsize']

end Boat.Files
