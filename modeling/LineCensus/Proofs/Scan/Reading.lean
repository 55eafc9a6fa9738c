import LineCensus.Proofs.Text.Lines
import LineCensus.Proofs.Text.Utf8
import LineCensus.Scan.Analyze

/-!
# `Proofs.Scan.Reading` — lines of bytes and lines of text

A content is decoded as a whole and then cut into lines. It could as well be cut first, at the bytes of the
terminators, and decoded piece by piece: a terminator is a byte of its own in UTF-8 and never part of a longer
sequence, so no cut goes through a scalar value, and a sequence that a cut goes through is ill-formed on both
sides.

## Contents
- `CutsInto.map_encode`, the lines of a text as the pieces of its bytes.
- `CutsInto.exists_encode`, the pieces of a content as those of a text, if each can be decoded.
- `linesOfBytes?_eq_some_iff`, and `linesOfBytes?_eq_linesOfPieces?`.
- `readLines_eq_pieces`, for a file.
-/

namespace LineCensus

open Text Utf8

/-! ## Cutting and encoding -/

theorem encode_head?_ne {rest : List Char} (h : rest.head? ≠ some '\n') :
    (encode rest).head? ≠ some 0x0A := by
  cases rest with
  | nil => exact nofun
  | cons c more =>
    intro hhead
    have hmem : (0x0A : UInt8) ∈ encode [c] := by
      rw [encode_cons, List.head?_append] at hhead
      rw [encode_cons, encode_nil, List.append_nil]
      cases hbytes : String.utf8EncodeChar c with
      | nil => exact absurd hbytes String.utf8EncodeChar_ne_nil
      | cons b bs =>
        rw [hbytes] at hhead
        rw [← Option.some.inj hhead]
        exact List.mem_cons_self
    have hc : '\n' ∈ [c] := mem_encode_of_ascii (by decide) hmem
    exact h (congrArg some (List.mem_singleton.mp hc).symm)

theorem Text.EndsPiece.map_encode {terminator rest : List Char} (h : EndsPiece '\r' '\n' terminator rest) :
    EndsPiece 0x0D 0x0A (Utf8.encode terminator) (Utf8.encode rest) := by
  rcases h with rfl | rfl | ⟨rfl, hhead⟩
  · exact Or.inl rfl
  · exact Or.inr (Or.inl rfl)
  · exact Or.inr (Or.inr ⟨rfl, encode_head?_ne hhead⟩)

/-- **The lines of a text are the pieces of its bytes**: the bytes of a terminator stand nowhere else. -/
theorem Text.CutsInto.map_encode {cs : List Char} {lines : List (List Char)} (h : CutsInto '\r' '\n' cs lines) :
    CutsInto 0x0D 0x0A (Utf8.encode cs) (lines.map Utf8.encode) := by
  have hfree : ∀ {b : UInt8} {piece : List Char}, b ≤ 0x7F → Char.ofNat b.toNat ∉ piece →
      b ∉ Utf8.encode piece := fun hb hpiece hmem => hpiece (mem_encode_of_ascii hb hmem)
  induction h with
  | nil => exact .nil
  | @last piece hne hcr hlf =>
    refine .last ?_ (hfree (by decide) hcr) (hfree (by decide) hlf)
    intro hnil
    exact hne (encode_injective hnil)
  | ended hcr hlf hends _ ih =>
    rw [encode_append, encode_append]
    exact .ended (hfree (by decide) hcr) (hfree (by decide) hlf) hends.map_encode ih

/-- Pieces that are encoded each for itself make an encoded text. -/
theorem Text.CutsInto.exists_encode {content : List UInt8} {pieces : List (List UInt8)}
    (h : CutsInto 0x0D 0x0A content pieces) (hpieces : ∀ piece ∈ pieces, ∃ cs, piece = Utf8.encode cs) :
    ∃ cs, content = Utf8.encode cs := by
  induction h with
  | nil => exact ⟨[], rfl⟩
  | last => exact hpieces _ (List.mem_singleton_self _)
  | @ended piece terminator rest pieces _ _ hends _ ih =>
    obtain ⟨hpiece, hmore⟩ := List.forall_mem_cons.mp hpieces
    obtain ⟨line, rfl⟩ := hpiece
    obtain ⟨cs, rfl⟩ := ih hmore
    have hterminator : ∃ breaks, terminator = Utf8.encode breaks := by
      rcases hends with rfl | rfl | ⟨rfl, _⟩
      · exact ⟨['\r', '\n'], rfl⟩
      · exact ⟨['\n'], rfl⟩
      · exact ⟨['\r'], rfl⟩
    obtain ⟨breaks, rfl⟩ := hterminator
    exact ⟨line ++ (breaks ++ cs), by rw [encode_append, encode_append]⟩

/-- The pieces of an encoded text are its lines, encoded. -/
theorem Text.CutsInto.eq_map_encode {cs : List Char} {content : List UInt8} {pieces : List (List UInt8)}
    (h : CutsInto 0x0D 0x0A content pieces) (hcs : content = Utf8.encode cs) :
    pieces = (splitLines cs).map Utf8.encode := by
  subst hcs
  exact h.unique (by decide) (cutsInto_splitLines cs).map_encode

/-! ## The lines of a content -/

theorem linesOfBytes?_encode (cs : List Char) : linesOfBytes? (encode cs) = some (splitLines cs) := by
  rw [linesOfBytes?, decode?_encode, Option.map_some]

/-- **Decoding and then cutting gives the lines of which the pieces are the bytes**, and gives none if there
    are no such lines. -/
theorem linesOfBytes?_eq_some_iff {content : List UInt8} {pieces : List (List UInt8)}
    {lines : List (List Char)} (h : CutsInto 0x0D 0x0A content pieces) :
    linesOfBytes? content = some lines ↔ pieces = lines.map encode := by
  constructor
  · intro hlines
    obtain ⟨cs, hcs, rfl⟩ := Option.map_eq_some_iff.mp hlines
    exact h.eq_map_encode (decode?_eq_some_iff.mp hcs)
  · intro heq
    obtain ⟨cs, hcs⟩ := h.exists_encode fun piece hpiece => by
      rw [heq] at hpiece
      obtain ⟨line, _, rfl⟩ := List.mem_map.mp hpiece
      exact ⟨line, rfl⟩
    have hsame : lines.map encode = (splitLines cs).map encode := heq.symm.trans (h.eq_map_encode hcs)
    rw [hcs, linesOfBytes?_encode, (List.map_inj_right fun _ _ => encode_injective).mp hsame]

/-- There are such lines exactly if every piece is well-formed. -/
theorem exists_eq_map_encode_iff {content : List UInt8} {pieces : List (List UInt8)}
    (h : CutsInto 0x0D 0x0A content pieces) :
    (∃ lines : List (List Char), pieces = lines.map encode) ↔ ∀ piece ∈ pieces, WellFormed piece := by
  constructor
  · rintro ⟨lines, rfl⟩ piece hpiece
    obtain ⟨line, _, rfl⟩ := List.mem_map.mp hpiece
    exact wellFormed_iff.mpr ⟨line, rfl⟩
  · intro hformed
    obtain ⟨cs, hcs⟩ := h.exists_encode fun piece hpiece => wellFormed_iff.mp (hformed piece hpiece)
    exact ⟨splitLines cs, h.eq_map_encode hcs⟩

theorem mapM_decode?_eq_some_iff {pieces : List (List UInt8)} {lines : List (List Char)} :
    pieces.mapM decode? = some lines ↔ pieces = lines.map encode := by
  induction pieces generalizing lines with
  | nil => cases lines <;> simp
  | cons piece rest ih =>
    rw [List.mapM_cons]
    cases lines with
    | nil => simp [Option.bind_eq_some_iff]
    | cons line more =>
      simp [Option.bind_eq_some_iff, ih, decode?_eq_some_iff]

/-- **Decoding and cutting may be exchanged.** -/
theorem linesOfBytes?_eq_linesOfPieces? (content : List UInt8) :
    linesOfBytes? content = linesOfPieces? content := by
  have hcuts : CutsInto 0x0D 0x0A content (scanBytes content) := cutsInto_run (by decide) content
  refine Option.ext fun lines => ?_
  rw [linesOfPieces?, mapM_decode?_eq_some_iff, linesOfBytes?_eq_some_iff hcuts]

/-! ## The lines of a file -/

theorem FileSystem.readLines_of_read {fs : FileSystem} {path : Path} {content : List UInt8}
    (h : fs.read path = .ok content) :
    fs.readLines path = (linesOfBytes? content).elim (.error (.undecodable path)) .ok := by
  simp only [readLines, h]
  cases linesOfBytes? content with
  | none => rfl
  | some lines => rfl

theorem FileSystem.readLines_eq_ok_iff {fs : FileSystem} {path : Path} {content : List UInt8}
    {lines : List (List Char)} (h : fs.read path = .ok content) :
    fs.readLines path = .ok lines ↔ linesOfBytes? content = some lines := by
  rw [readLines_of_read h]
  cases linesOfBytes? content with
  | none => simp
  | some found => simp

/-- **The lines of a file are the pieces of its content.** Take any file that can be read. Its content is cut
    in exactly one way at its terminators: at CR LF, and at each other CR and LF. The file has lines exactly
    if every piece is well-formed, and then the lines in order are those of which the pieces are the bytes;
    otherwise it is refused as a whole. So decoding and cutting may be exchanged, and a string that was
    written is read back as its lines. -/
theorem readLines_eq_pieces {fs : FileSystem} {path : Path} {content : List UInt8}
    (hread : fs.read path = .ok content) :
    ∃ pieces, CutsInto 0x0D 0x0A content pieces ∧
      (∀ other, CutsInto 0x0D 0x0A content other → other = pieces) ∧
      ((∃ lines, fs.readLines path = .ok lines) ↔ ∀ piece ∈ pieces, WellFormed piece) ∧
      (∀ lines, fs.readLines path = .ok lines ↔ pieces = lines.map encode) ∧
      ((∃ piece ∈ pieces, ¬WellFormed piece) → fs.readLines path = .error (.undecodable path)) ∧
      linesOfBytes? content = linesOfPieces? content ∧
      (∀ s : String, content = bytes s → fs.readLines path = .ok (splitLines s.toList)) := by
  have hcuts : CutsInto 0x0D 0x0A content (scanBytes content) := cutsInto_run (by decide) content
  have hlines : ∀ lines, fs.readLines path = .ok lines ↔ scanBytes content = lines.map encode := by
    intro lines
    rw [FileSystem.readLines_eq_ok_iff hread, linesOfBytes?_eq_some_iff hcuts]
  have hok : (∃ lines, fs.readLines path = .ok lines) ↔
      ∀ piece ∈ scanBytes content, WellFormed piece := by
    rw [← exists_eq_map_encode_iff hcuts]
    exact exists_congr hlines
  refine ⟨scanBytes content, hcuts, fun other h => h.unique (by decide) hcuts, hok, hlines, ?_,
    linesOfBytes?_eq_linesOfPieces? content, ?_⟩
  · rintro ⟨piece, hpiece, hill⟩
    rw [FileSystem.readLines_of_read hread]
    cases hfound : linesOfBytes? content with
    | none => rfl
    | some lines =>
      -- a content with lines has no ill-formed piece
      have hall := hok.mp ⟨lines, (FileSystem.readLines_eq_ok_iff hread).mpr hfound⟩
      exact absurd (hall piece hpiece) hill
  · rintro s rfl
    exact (FileSystem.readLines_eq_ok_iff hread).mpr (linesOfBytes?_encode s.toList)

/-- A file that starts with a byte order mark and ends its lines in two ways, and one with a sequence of two
    bytes that a line break cuts in half. -/
def brokenView : FileSystem where
  kind _ := .ok .file
  list _ := .error .notDirectory
  canonical p := .ok p
  read p :=
    if p = .ofString "/marked.py" then .ok (bytes "\uFEFFé\r\n\rb") else .ok [0x61, 0xC3, 0x0A, 0xA9]

theorem readLines_eq_pieces_brokenView :
    brokenView.read (.ofString "/marked.py") = .ok (bytes "\uFEFFé\r\n\rb") ∧
    brokenView.readLines (.ofString "/marked.py") = .ok [['\uFEFF', 'é'], [], ['b']] ∧
    brokenView.read (.ofString "/cut.py") = .ok [0x61, 0xC3, 0x0A, 0xA9] ∧
    brokenView.readLines (.ofString "/cut.py") = .error (.undecodable (.ofString "/cut.py")) := by
  have hmarked : brokenView.read (.ofString "/marked.py") = .ok (bytes "\uFEFFé\r\n\rb") := rfl
  have hcut : brokenView.read (.ofString "/cut.py") = .ok [0x61, 0xC3, 0x0A, 0xA9] := rfl
  obtain ⟨pieces, _, hunique, _, hlines, _⟩ := readLines_eq_pieces hmarked
  obtain ⟨pieces', _, hunique', _, _, hrefused, _⟩ := readLines_eq_pieces hcut
  have hpieces := hunique _ (cutsInto_run (by decide) _)
  have hpieces' := hunique' _ (cutsInto_run (by decide) _)
  refine ⟨hmarked, (hlines _).mpr ?_, hcut, hrefused ⟨[0x61, 0xC3], ?_, ?_⟩⟩
  · rw [← hpieces]
    decide
  · rw [← hpieces']
    decide
  · rw [wellFormed_iff]
    rintro ⟨cs, hcs⟩
    have hnone : decode? [0x61, 0xC3] = none := by decide
    rw [hcs, decode?_encode] at hnone
    cases hnone

end LineCensus
