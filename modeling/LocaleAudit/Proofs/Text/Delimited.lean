import LocaleAudit.Text.Delimited
import Mathlib.Data.List.Basic

namespace LocaleAudit.Delimited

/-!
# Delimited text read back

A reader that stands at the start of a field has read the whole field behind its written form, bare
or quoted, and what can follow it is a delimiter or a line end. So it reads record by record what
was written, when all records have the same number of fields.
-/

variable {delimiter : Char} {records : List (List (List Char))} {fields : List (List Char)}
  {field text : List Char} {r r' : Reader}

/-- A character that can stand between fields: it has no other meaning. -/
structure IsDelimiter (c : Char) : Prop where
  not_quote : c ≠ '"'
  not_newline : c ≠ '\n'
  not_return : c ≠ '\r'

theorem isDelimiter_comma : IsDelimiter ',' := by
  constructor <;> decide

theorem isDelimiter_tab : IsDelimiter '\t' := by
  constructor <;> decide

/-! ## Runs of a reader -/

namespace Reader

/-- The reader behind a text. -/
def run (delimiter : Char) (r : Reader) (text : List Char) : Option Reader :=
  text.foldlM (step? delimiter) r

theorem run_nil : run delimiter r [] = some r := rfl

theorem run_cons {c : Char} : run delimiter r (c :: text) =
    (step? delimiter r c).bind (run delimiter · text) := rfl

theorem run_append (h : run delimiter r text = some r') (rest : List Char) :
    run delimiter r (text ++ rest) = run delimiter r' rest := by
  have hfold : text.foldlM (step? delimiter) r = some r' := h
  rw [run, List.foldlM_append, hfold]
  rfl

/-- A field can end where the reader stands. -/
inductive Position.Closes : Position → Prop where
  | start : Closes .start
  | bare : Closes .bare
  | afterQuote : Closes .afterQuote

theorem step?_delimiter (h : IsDelimiter delimiter) (hr : Position.Closes r.position) :
    step? delimiter r delimiter = some r.endField := by
  have hclose : r.close? delimiter delimiter = some r.endField := if_pos rfl
  rw [step?]
  generalize r.position = position at hr
  cases hr <;> simp [h.not_quote, hclose]

theorem step?_newline (h : IsDelimiter delimiter) (hr : Position.Closes r.position) :
    step? delimiter r '\n' = some r.endRecord := by
  have hclose : r.close? delimiter '\n' = some r.endRecord := by
    rw [close?, if_neg h.not_newline.symm, if_pos rfl]
  rw [step?]
  generalize r.position = position at hr
  cases hr <;> simp [hclose]

/-- A character without a meaning of its own is taken into a bare field, also as its first. -/
theorem step?_plain {c : Char} (hc : c ≠ delimiter ∧ c ≠ '"' ∧ c ≠ '\n' ∧ c ≠ '\r')
    (hr : r.position = .start ∨ r.position = .bare) :
    step? delimiter r c = some (r.take .bare c) := by
  obtain ⟨hdelimiter, hquote, hnewline, hreturn⟩ := hc
  have hclose : r.close? delimiter c = none := by
    rw [close?, if_neg hdelimiter, if_neg hnewline, if_neg hreturn]
  rw [step?]
  rcases hr with hstart | hbare
  · simp [hstart, hquote, hclose]
  · simp [hbare, hquote, hclose]

end Reader

open Reader

/-! ## Fields -/

theorem needsQuotes_cons {c : Char} : needsQuotes delimiter (c :: field) = false ↔
    (c ≠ delimiter ∧ c ≠ '"' ∧ c ≠ '\n' ∧ c ≠ '\r') ∧ needsQuotes delimiter field = false := by
  simp [needsQuotes, and_assoc]

/-- A field without quotes is read character by character. -/
theorem run_bare (hfield : needsQuotes delimiter field = false) (taken : List Char) :
    run delimiter ⟨records, fields, taken, .bare⟩ field =
      some ⟨records, fields, taken ++ field, .bare⟩ := by
  induction field generalizing taken with
  | nil => rw [List.append_nil, run_nil]
  | cons c field ih =>
    obtain ⟨hplain, hrest⟩ := needsQuotes_cons.mp hfield
    have hbehind := ih hrest (taken ++ [c])
    rw [List.append_assoc, List.singleton_append] at hbehind
    rw [run_cons, step?_plain hplain (Or.inr rfl)]
    exact hbehind

theorem run_writeQuoted (taken : List Char) :
    run delimiter ⟨records, fields, taken, .quoted⟩ (writeQuoted field) =
      some ⟨records, fields, taken ++ field, .afterQuote⟩ := by
  induction field generalizing taken with
  | nil => rw [List.append_nil]; rfl
  | cons c field ih =>
    rw [writeQuoted]
    split
    · subst c
      have hsteps : run delimiter ⟨records, fields, taken, .quoted⟩ ['"', '"'] =
          some ⟨records, fields, taken ++ ['"'], .quoted⟩ := rfl
      have hrun := run_append hsteps (writeQuoted field)
      rw [List.cons_append, List.singleton_append] at hrun
      rw [hrun, ih, List.append_assoc, List.singleton_append]
    · rename_i hquote
      have hstep : step? delimiter ⟨records, fields, taken, .quoted⟩ c =
          some ⟨records, fields, taken ++ [c], .quoted⟩ := by
        simp [step?, take, hquote]
      rw [run_cons, hstep, Option.bind_some, ih, List.append_assoc, List.singleton_append]

/-- Behind a written field the reader has the field, and it can end. -/
theorem run_writeField (records : List (List (List Char))) (fields : List (List Char))
    (field : List Char) : ∃ position, Position.Closes position ∧
      run delimiter ⟨records, fields, [], .start⟩ (writeField delimiter field) =
        some ⟨records, fields, field, position⟩ := by
  cases hneeds : needsQuotes delimiter field with
  | true =>
    refine ⟨.afterQuote, .afterQuote, ?_⟩
    rw [writeField, hneeds, if_pos rfl]
    exact run_writeQuoted []
  | false =>
    rw [writeField, hneeds, if_neg Bool.false_ne_true]
    cases field with
    | nil => exact ⟨.start, .start, rfl⟩
    | cons c field =>
      obtain ⟨hplain, hrest⟩ := needsQuotes_cons.mp hneeds
      refine ⟨.bare, .bare, ?_⟩
      rw [run_cons, step?_plain hplain (Or.inl rfl)]
      exact run_bare hrest [c]

/-! ## Records -/

section

variable (h : IsDelimiter delimiter)

include h

/-- Behind the written fields of a record only its line end is missing. -/
theorem run_writeFields (records : List (List (List Char))) (fields : List (List Char))
    (field : List Char) (rest : List (List Char)) :
    ∃ r, Position.Closes r.position ∧
      run delimiter ⟨records, fields, [], .start⟩ (writeFields delimiter (field :: rest)) = some r ∧
      r.records = records ∧ r.fields ++ [r.field] = fields ++ field :: rest := by
  induction rest generalizing field fields with
  | nil =>
    obtain ⟨position, hcloses, hrun⟩ := run_writeField records fields field
    exact ⟨_, hcloses, hrun, rfl, rfl⟩
  | cons next rest ih =>
    obtain ⟨position, hcloses, hrun⟩ := run_writeField records fields field
    obtain ⟨r, hr, hnext, hrecords, hfields⟩ := ih (fields ++ [field]) next
    refine ⟨r, hr, ?_, hrecords, by simpa using hfields⟩
    rw [writeFields, run_append hrun, run_cons, step?_delimiter h hcloses]
    exact hnext

theorem run_writeRecord {record : List (List Char)} (hrecord : record ≠ []) :
    run delimiter ⟨records, [], [], .start⟩ (writeRecord delimiter record) =
      some ⟨records ++ [record], [], [], .start⟩ := by
  obtain ⟨field, rest, rfl⟩ := List.exists_cons_of_ne_nil hrecord
  obtain ⟨r, hr, hrun, hrecords, hfields⟩ := run_writeFields h records [] field rest
  have hend : r.endRecord = ⟨records ++ [field :: rest], [], [], .start⟩ := by
    rw [endRecord, hrecords, hfields, List.nil_append]
  rw [writeRecord]
  split
  · -- No text at all is that of a single empty field, which is what two quotes say.
    rename_i hnone
    rw [hnone, run_nil] at hrun
    cases hrun
    rw [List.nil_append, List.nil_append] at hfields
    rw [← hfields]
    have hquotes : run delimiter ⟨records, [], [], .start⟩ ['"', '"'] =
        some ⟨records, [], [], .afterQuote⟩ := rfl
    have hline := run_append hquotes ['\n']
    rw [run_cons, step?_newline h .afterQuote] at hline
    exact hline
  · rename_i c cs hsome
    rw [← hsome, run_append hrun, run_cons, step?_newline h hr, hend]
    rfl

theorem run_writeRecords {width : Nat} (hwidth : 0 < width)
    (hrecords : ∀ record ∈ records, record.length = width) (before : List (List (List Char))) :
    ∃ text, writeRecords delimiter width records = (text, .ok ()) ∧
      run delimiter ⟨before, [], [], .start⟩ text = some ⟨before ++ records, [], [], .start⟩ := by
  induction records generalizing before with
  | nil => exact ⟨[], rfl, by rw [List.append_nil, run_nil]⟩
  | cons record records ih =>
    rw [List.forall_mem_cons] at hrecords
    obtain ⟨text, hwrite, hrun⟩ := ih hrecords.2 (before ++ [record])
    have hrecord : record ≠ [] := List.ne_nil_of_length_pos (hrecords.1 ▸ hwidth)
    refine ⟨writeRecord delimiter record ++ text, ?_, ?_⟩
    · rw [writeRecords, if_pos hrecords.1, hwrite]
    · rw [run_append (run_writeRecord h hrecord), hrun, List.append_assoc, List.singleton_append]

end

/-- Records of the same width, which is not zero, are written whole, and read back as they are. -/
theorem exists_write_read? (h : IsDelimiter delimiter) {width : Nat} (hwidth : 0 < width)
    {records : List (List String)} (hrecords : ∀ record ∈ records, record.length = width) :
    ∃ text, write delimiter records = (text, .ok ()) ∧ read? delimiter text = some records := by
  cases records with
  | nil => exact ⟨"", rfl, rfl⟩
  | cons first rest =>
    have hwidths : ∀ record ∈ (first :: rest).map (·.map String.toList),
        record.length = first.length := by
      intro record hrecord
      obtain ⟨record, hmem, rfl⟩ := List.mem_map.mp hrecord
      rw [List.length_map, hrecords record hmem, hrecords first List.mem_cons_self]
    have hpositive : 0 < first.length := by rwa [hrecords first List.mem_cons_self]
    obtain ⟨text, hwrite, hrun⟩ := run_writeRecords h hpositive hwidths []
    refine ⟨String.ofList text, ?_, ?_⟩
    · simp only [List.map_cons] at hwrite
      simp only [write, List.map_cons, List.head?_cons, Option.map_some, Option.getD_some,
        List.length_map, hwrite]
    · have hread : text.foldlM (step? delimiter) Reader.start =
          some ⟨(first :: rest).map (·.map String.toList), [], [], .start⟩ := hrun
      rw [read?, String.toList_ofList, hread]
      simp [finish?]

/-- A carriage return belongs to the line end, and the last line need not be ended. -/
example : read? ',' "a,\"b\"\"\n,c\"\r\n,\"\"" = some [["a", "b\"\n,c"], ["", ""]] := by
  decide +kernel

end LocaleAudit.Delimited
