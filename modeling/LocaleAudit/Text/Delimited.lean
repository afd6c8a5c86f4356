namespace LocaleAudit

/-!
# Delimited text

Records of fields, each on lines of its own. A field that holds the delimiter, a quote or a line end
stands between quotes, with its own quotes doubled, and a record without any text is a quoted empty
field. All records have as many fields as the first. A reader takes such text apart again; for it a
carriage return in front of a line feed belongs to the line end.
-/

namespace Delimited

/-- A record with another number of fields than the first one. -/
structure WidthFault where
  expected : Nat
  found : Nat
  deriving DecidableEq, Repr

def WidthFault.message (fault : WidthFault) : String :=
  s!"CSV error: found record with {fault.found} fields, but the previous record has " ++
    s!"{fault.expected} fields"

/-! ## Writing -/

def needsQuotes (delimiter : Char) (field : List Char) : Bool :=
  field.any fun c => c == delimiter || c == '"' || c == '\n' || c == '\r'

/-- The inside of a quoted field and its closing quote. -/
def writeQuoted : List Char → List Char
  | [] => ['"']
  | c :: cs => if c = '"' then '"' :: '"' :: writeQuoted cs else c :: writeQuoted cs

def writeField (delimiter : Char) (field : List Char) : List Char :=
  if needsQuotes delimiter field then '"' :: writeQuoted field else field

/-- The fields of a record with delimiters between them. -/
def writeFields (delimiter : Char) : List (List Char) → List Char
  | [] => []
  | [field] => writeField delimiter field
  | field :: next :: fields =>
    writeField delimiter field ++ delimiter :: writeFields delimiter (next :: fields)

/-- A record with the end of its line. -/
def writeRecord (delimiter : Char) (fields : List (List Char)) : List Char :=
  match writeFields delimiter fields with
  | [] => ['"', '"', '\n']
  | c :: cs => c :: cs ++ ['\n']

/-- Records one after another, up to the first that has another number of fields than `width`. The
fields of that one are written, but not the end of its line. -/
def writeRecords (delimiter : Char) (width : Nat) :
    List (List (List Char)) → List Char × Except WidthFault Unit
  | [] => ([], .ok ())
  | record :: records =>
    if record.length = width then
      let (text, result) := writeRecords delimiter width records
      (writeRecord delimiter record ++ text, result)
    else (writeFields delimiter record, .error ⟨width, record.length⟩)

/-- The text of records, with the fault that kept it from being whole if there is one. -/
def write (delimiter : Char) (records : List (List String)) : String × Except WidthFault Unit :=
  let records := records.map (·.map String.toList)
  let width := (records.head?.map List.length).getD 0
  let (text, result) := writeRecords delimiter width records
  (String.ofList text, result)

/-! ## Reading -/

/-- Where in a field a reader stands. -/
inductive Position where
  | start
  | bare
  | quoted
  /-- Behind a quote in a quoted field, which ends the field or is the first of two. -/
  | afterQuote
  /-- Behind a carriage return that begins a line end. -/
  | lineEnd
  deriving DecidableEq, Repr

/-- What has been read of a text: whole records, whole fields of the next one, and the field in
which the reader stands. -/
structure Reader where
  records : List (List (List Char))
  fields : List (List Char)
  field : List Char
  position : Position
  deriving DecidableEq, Repr

namespace Reader

def start : Reader :=
  ⟨[], [], [], .start⟩

def take (r : Reader) (position : Position) (c : Char) : Reader :=
  { r with field := r.field ++ [c], position }

def endField (r : Reader) : Reader :=
  { r with fields := r.fields ++ [r.field], field := [], position := .start }

def endRecord (r : Reader) : Reader :=
  ⟨r.records ++ [r.fields ++ [r.field]], [], [], .start⟩

/-- The reader behind a character that ends its field; other characters do not. -/
def close? (delimiter : Char) (r : Reader) (c : Char) : Option Reader :=
  if c = delimiter then some r.endField
  else if c = '\n' then some r.endRecord
  else if c = '\r' then some { r with position := .lineEnd }
  else none

/-- The reader behind the next character. A quote can only begin a field, end it, or stand doubled
inside a quoted one. -/
def step? (delimiter : Char) (r : Reader) (c : Char) : Option Reader :=
  match r.position with
  | .start =>
    if c = '"' then some { r with position := .quoted }
    else (r.close? delimiter c).or (some (r.take .bare c))
  | .bare =>
    if c = '"' then none
    else (r.close? delimiter c).or (some (r.take .bare c))
  | .quoted =>
    if c = '"' then some { r with position := .afterQuote }
    else some (r.take .quoted c)
  | .afterQuote =>
    if c = '"' then some (r.take .quoted c)
    else r.close? delimiter c
  | .lineEnd => if c = '\n' then some r.endRecord else none

/-- The records of a text that ends where the reader stands. The last line need not be ended. -/
def finish? (r : Reader) : Option (List (List (List Char))) :=
  match r.position with
  | .quoted => none
  | .lineEnd => none
  | .start => some (if r.fields = [] then r.records else r.endRecord.records)
  | .bare => some r.endRecord.records
  | .afterQuote => some r.endRecord.records

end Reader

/-- The records of a text, if it is delimited text. -/
def read? (delimiter : Char) (text : String) : Option (List (List String)) :=
  ((text.toList.foldlM (Reader.step? delimiter) Reader.start).bind Reader.finish?).map
    (·.map (·.map String.ofList))

end Delimited

end LocaleAudit
