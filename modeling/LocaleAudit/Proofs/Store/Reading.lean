import LocaleAudit.Store

namespace LocaleAudit

/-!
# Reading a document

What a store loads depends on the bytes of the document alone, and the bytes that a catalog is
rendered to are read as the text they were written from.
-/

theorem fromUTF8?_toUTF8 (s : String) : String.fromUTF8? s.toUTF8 = some s := by
  unfold String.fromUTF8?
  exact dif_pos s.isValidUTF8

/-- A text that begins like an object is not taken for one with a byte order mark. -/
theorem decodeText_toUTF8 {s : String} (rest : List Char) (h : s.toList = '\x7b' :: rest) :
    decodeText s.toUTF8 = some s := by
  have hbytes : ∃ bytes, s.toUTF8.data.toList = 0x7B :: bytes := by
    have hencode : s.toUTF8 = ('\x7b' :: rest).utf8Encode := by
      rw [← h, String.utf8Encode_toList]
      rfl
    rw [hencode, List.utf8Encode, List.flatMap_cons, List.data_toByteArray]
    exact ⟨_, rfl⟩
  obtain ⟨bytes, hbytes⟩ := hbytes
  rw [decodeText, hbytes]
  exact fromUTF8?_toUTF8 s

theorem decodeText_render (tree : Tree) :
    decodeText (Catalog.render tree).toUTF8 = some (Catalog.render tree) := by
  cases tree with
  | nil => exact decodeText_toUTF8 ['\x7d', '\n'] (by decide)
  | cons field rest =>
    refine decodeText_toUTF8 ((Json.writePretty 0 (.object (field :: rest))).tail ++ ['\n']) ?_
    simp [Catalog.render, Json.pretty, Json.writePretty]

namespace Store

variable {s : Store} {files files' : Directory} {language nameSpace : String}

theorem load_congr (h : files.readBytes (s.pathFor language nameSpace) =
    files'.readBytes (s.pathFor language nameSpace)) :
    s.load files language nameSpace = s.load files' language nameSpace := by
  unfold load Directory.readText
  rw [h]

theorem loadOrEmpty_congr (h : files.readBytes (s.pathFor language nameSpace) =
    files'.readBytes (s.pathFor language nameSpace)) :
    s.loadOrEmpty files language nameSpace = s.loadOrEmpty files' language nameSpace := by
  unfold loadOrEmpty
  rw [load_congr h]

theorem loadOrEmpty_of_load {c : Catalog} (h : s.load files language nameSpace = .ok c) :
    s.loadOrEmpty files language nameSpace = .ok c := by
  unfold loadOrEmpty
  rw [h]

theorem parse_ne_notFound {text : String} :
    Catalog.parse language nameSpace text ≠ .error (.io .notFound) := by
  intro h
  unfold Catalog.parse at h
  split at h
  · unfold Catalog.ofValue at h
    split at h
    · split at h <;> cases h
    · cases h
  · cases h

/-- A catalog is loaded from its document, or is empty because there is none. -/
theorem loadOrEmpty_cases {c : Catalog} (h : s.loadOrEmpty files language nameSpace = .ok c) :
    s.load files language nameSpace = .ok c ∨
      files.readBytes (s.pathFor language nameSpace) = .error .notFound ∧
        c = Catalog.empty language nameSpace := by
  unfold loadOrEmpty at h
  split at h
  · rename_i hload
    cases h
    right
    refine ⟨?_, rfl⟩
    unfold load Directory.readText at hload
    split at hload
    · exact absurd hload parse_ne_notFound
    · rename_i fault hfault
      cases hload
      split at hfault
      · rename_i hbytes
        cases hfault
        exact hbytes
      · split at hfault <;> cases hfault
  · exact Or.inl h

theorem exists_readBytes_of_load {c : Catalog} (h : s.load files language nameSpace = .ok c) :
    ∃ bytes text, files.readBytes (s.pathFor language nameSpace) = .ok bytes ∧
      decodeText bytes = some text ∧ Catalog.parse language nameSpace text = .ok c := by
  unfold load at h
  split at h
  · rename_i text htext
    unfold Directory.readText at htext
    split at htext
    · cases htext
    · rename_i bytes hbytes
      split at htext
      · rename_i text' hdecode
        cases htext
        exact ⟨bytes, text, hbytes, hdecode, h⟩
      · cases htext
  · cases h

/-- A document that stands for a catalog was read, or is missing. -/
theorem readBytes_of_loadOrEmpty {c : Catalog}
    (h : s.loadOrEmpty files language nameSpace = .ok c) :
    (∃ bytes, files.readBytes (s.pathFor language nameSpace) = .ok bytes) ∨
      files.readBytes (s.pathFor language nameSpace) = .error .notFound := by
  rcases loadOrEmpty_cases h with hload | ⟨hmissing, _⟩
  · obtain ⟨bytes, _, hbytes, _⟩ := exists_readBytes_of_load hload
    exact Or.inl ⟨bytes, hbytes⟩
  · exact Or.inr hmissing

theorem load_of_readBytes {bytes : ByteArray} {text : String}
    (hbytes : files.readBytes (s.pathFor language nameSpace) = .ok bytes)
    (htext : decodeText bytes = some text) :
    s.load files language nameSpace = Catalog.parse language nameSpace text := by
  unfold load Directory.readText
  rw [hbytes]
  simp only [htext]

end Store

end LocaleAudit
