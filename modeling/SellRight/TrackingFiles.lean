import SellRight.OrderCodeLookups

/-!
# Tracking files

The reader of tracking files guesses the separator from the raw first lines and
then undoes quoting character by character. Where the guess is the separator a
table was written with, the table comes back, whatever its cells hold. Each
data record becomes a row or is counted as left out.
-/

namespace SellRight.TrackingFiles

open OrderNumbers OrderCodeLookups List

/-- `text.split(/\r?\n/)`. -/
def splitLines : Code → List Code
  | [] => [[]]
  | ch::rest =>
    if ch = '\n' then []::splitLines rest
    else if ch = '\r'∧rest.head? = some '\n' then splitLines rest
    else (splitLines rest).modifyHead (List.cons ch)

/-- Separator guessed from the first three lines that are not blank. -/
def guessDelimiter (text : Code) : Char :=
  let sample := intercalate ['\n'] (((splitLines text).filter fun l => decide (trim l≠[])).take 3)
  if sample.contains '\t' then '\t'
  else if sample.contains ';'&&!sample.contains ',' then ';' else ','

/-- Where the loop of `csvRecords` stands. -/
structure Reader where
  out : List (List Code)
  row : List Code
  cur : Code
  /-- The cell is inside quotes. -/
  q : Bool
  /-- The next character was read with this one. -/
  skip : Bool

/-- End a record; records of empty cells are dropped. -/
def Reader.endRow (r : Reader) (skip : Bool) : Reader :=
  let row := r.row++[trim r.cur]
  ⟨if row.any fun c => decide (c≠[]) then r.out++[row] else r.out,[],[],false,skip⟩

/-- Read one character, given the one after it. -/
def readChar (delim ch : Char) (next : Option Char) (r : Reader) : Reader :=
  if r.skip then {r with skip := false}
  else if r.q then
    if ch = '"' then
      if next = some '"' then {r with cur := r.cur++['"'], skip := true} else {r with q := false}
    else {r with cur := r.cur++[ch]}
  else if ch = '"' then {r with q := true}
  else if ch = delim then {r with row := r.row++[trim r.cur],cur := []}
  else if ch = '\n'∨ch = '\r' then r.endRow (decide (ch = '\r'∧next = some '\n'))
  else {r with cur := r.cur++[ch]}

def readChars (delim : Char) : Code → Reader → Reader
  | [],r => r
  | ch::rest, r => readChars delim rest (readChar delim ch rest.head? r)

/-- Records of a text. -/
def csvRecords (text : Code) : List (List Code) :=
  ((readChars (guessDelimiter text) text ⟨[],[],[],false,false⟩).endRow false).out

/-- A cell in quotes where it holds the separator, a quote or a line break. -/
def writeCell (delim : Char) (cell : Code) : Code :=
  if cell.any fun c => decide (c = delim∨c = '"'∨c = '\n'∨c = '\r') then
    '"'::(cell.flatMap fun c => if c = '"' then ['"', '"'] else [c])++['"']
  else cell

def writeRow (delim : Char) (row : List Code) : Code :=
  intercalate [delim] (row.map (writeCell delim))

/-- Text of a table, with or without a line break at its end. -/
def writeTable (delim : Char) (eol : Code) (closed : Bool) (table : List (List Code)) : Code :=
  intercalate eol (table.map (writeRow delim))++if closed then eol else []

/-- Why a data record is left out. -/
inductive SkipReason
  | blank
  | amazon
  | duplicate
  deriving DecidableEq

structure TrackingRow where
  (code tracking : Code)
  carrier : Option Code

structure SkippedRow where
  line : ℕ
  (code tracking : Code)
  reason : SkipReason

/-- Columns of a file; a column that is not there is none. -/
structure Columns where
  (code tracking carrier : Option ℕ)

structure TrackingParseInfo where
  titleSkipped : Bool
  header : Option (List Code)
  columns : Code×Code×Option Code
  skipped : SkipReason → ℕ
  skippedRows : List SkippedRow

structure World where
  (toLowerCase toUpperCase : Code → Code)

def orderHeaders : List Code := ["order code", "orderid", "order_code", "order", "code",
  "order number", "order_number", "order id", "order_id"].map String.toList

def trackingHeaders : List Code := ["shpack_trackingid", "tracking code", "tracking",
  "tracking_code", "tracking number", "tracking_number"].map String.toList

def carrierHeaders : List Code := ["carrier", "provider"].map String.toList

/-- `AMAZON_ORDER`: three digits, seven and seven. -/
def amazonOrder (code : Code) : Bool :=
  let parts := code.splitOn '-'
  decide (parts.map List.length=[3,7,7])&&parts.all fun part => part.all Char.isDigit

variable (w : World)

def isHeader (record : Option (List Code)) : Bool :=
  record.any fun cells => cells.any fun c =>
    (orderHeaders++trackingHeaders++carrierHeaders).contains (w.toLowerCase c)

/-- Column of the first name found in the header. -/
def pick (header names : List Code) : Option ℕ :=
  names.findSome? fun n => (header.map w.toLowerCase).findIdx? fun h => decide (h = n)

/-- Header of a file, whether a title was skipped, and the data records. -/
def splitHeader (records : List (List Code)) : Option (List Code)×Bool×List (List Code) :=
  if isHeader w records[0]? then (records[0]?,false,records.drop 1)
  else if isHeader w records[1]? then (records[1]?,true,records.drop 2)
  else (none,false,records)

/-- A column of a record; empty where there is none. -/
def cellAt (record : List Code) (column : Option ℕ) : Code :=
  trim (column.elim [] fun i => record[i]?.getD [])

/-- Where the loop over the data records stands. -/
structure Parsed where
  rows : List TrackingRow
  seen : List Code
  skipped : SkipReason → ℕ
  skippedRows : List SkippedRow

/-- Leave a record out; the first 200 are listed. -/
def Parsed.skip (p : Parsed) (line : ℕ) (code tracking : Code) (reason : SkipReason) : Parsed :=
  {p with
    skipped := Function.update p.skipped reason (p.skipped reason+1)
    skippedRows := if p.skippedRows.length<200 then p.skippedRows++[⟨line,code,tracking,reason⟩]
      else p.skippedRows}

/-- What tells orders and tracking numbers apart. -/
def rowKey (code tracking : Code) : Code := w.toUpperCase code++ ':'::tracking

/-- Take one data record. -/
def takeRecord (idx : Columns) (line : ℕ) (p : Parsed) (rec : List Code) : Parsed :=
  let code := cellAt rec idx.code
  let tracking := cellAt rec idx.tracking
  if code = []∨tracking = [] then p.skip line code tracking .blank
  else if amazonOrder code then p.skip line code tracking .amazon
  else if p.seen.contains (rowKey w code tracking) then p.skip line code tracking .duplicate
  else
    let carrier := cellAt rec idx.carrier
    {p with
      seen := p.seen++[rowKey w code tracking]
      rows := p.rows++[⟨code,tracking,if carrier = [] then none else some carrier⟩]}

def takeRecords (idx : Columns) : ℕ → List (List Code) → Parsed → Parsed
  | _, [],p => p
  | line, rec::rest, p => takeRecords idx (line+1) rest (takeRecord w idx line p rec)

/-- Records of a file, its byte order mark dropped, with their header told apart. -/
def fileRecords (text : Code) : Option (List Code)×Bool×List (List Code) :=
  splitHeader w (csvRecords (if text.head? = some (Char.ofNat 65279) then text.tail else text))

def dataRecords (text : Code) : List (List Code) := (fileRecords w text).2.2

/-- Rows of a tracking file and how it was read. -/
def parseTrackingFile (text : Code) : List TrackingRow×TrackingParseInfo :=
  let header := (fileRecords w text).1
  let titleSkipped := (fileRecords w text).2.1
  let idx : Columns := header.elim ⟨some 0,some 1,some 2⟩ fun names =>
    ⟨pick w names orderHeaders,pick w names trackingHeaders,pick w names carrierHeaders⟩
  let name (names : List Code) (column : Option ℕ) : Option Code := column.bind fun i => names[i]?
  let missing := "(not found)".toList
  let columns := header.elim ("column 1".toList,"column 2".toList,some "column 3".toList)
    fun names => ((name names idx.code).getD missing,(name names idx.tracking).getD missing,
      name names idx.carrier)
  let line := (if header.isSome then 1 else 0)+(if titleSkipped then 1 else 0)+1
  let parsed := takeRecords w idx line (dataRecords w text) ⟨[],[],fun _ => 0,[]⟩
  (parsed.rows,⟨titleSkipped,header,columns,parsed.skipped,parsed.skippedRows⟩)

section Quoting

variable {delim : Char} {out : List (List Code)} {row : List Code} {cur cell rest : Code}

/-- A cell without special characters is read as it stands. -/
theorem readChars_plain (h : ∀ c∈cell, ¬ (c = delim∨c = '"'∨c = '\n'∨c = '\r')) :
    readChars delim (cell++rest) ⟨out,row,cur,false,false⟩ =
      readChars delim rest ⟨out,row,cur++cell,false,false⟩ := by
  induction cell generalizing cur with
  | nil => rw [nil_append,append_nil]
  | cons c cell ih =>
    obtain ⟨hdel,hquo,hbrk⟩ : c≠delim∧c≠ '"'∧¬ (c = '\n'∨c = '\r') := by
      simpa [not_or] using h c mem_cons_self
    rw [cons_append,readChars]
    simp only [readChar,hdel,hquo,hbrk,if_false,Bool.false_eq_true]
    rw [ih fun c hc => h c (mem_cons_of_mem _ hc),append_assoc,singleton_append]

/-- Inside quotes everything is read, and doubled quotes once. -/
theorem readChars_quoted (hrest : rest.head?≠some '"') :
    readChars delim ((cell.flatMap fun c => if c = '"' then ['"', '"'] else [c])++ '"'::rest)
      ⟨out,row,cur,true,false⟩ = readChars delim rest ⟨out,row,cur++cell,false,false⟩ := by
  induction cell generalizing cur with
  | nil => simp [readChars,readChar,hrest]
  | cons c cell ih =>
    rw [flatMap_cons]
    by_cases hquo : c = '"'
    · subst hquo
      simp only [if_true,cons_append,nil_append,readChars,readChar,head?_cons,if_false,
        Bool.false_eq_true]
      rw [ih,append_assoc,singleton_append]
    · simp only [hquo,if_false,cons_append,nil_append,readChars,readChar,if_true,
        Bool.false_eq_true]
      rw [ih,append_assoc,singleton_append]

theorem readChars_writeCell (hrest : rest.head?≠some '"') :
    readChars delim (writeCell delim cell++rest) ⟨out,row,[],false,false⟩ =
      readChars delim rest ⟨out,row,cell,false,false⟩ := by
  unfold writeCell
  split_ifs with hplain
  · simp only [cons_append,append_assoc,nil_append,readChars,readChar,if_true,if_false,
      Bool.false_eq_true]
    exact readChars_quoted hrest
  refine readChars_plain fun c hc hsp => hplain (any_eq_true.mpr ⟨c,hc,decide_eq_true hsp⟩)

/-- The separators are neither quotes nor line breaks. -/
def Separator (delim : Char) : Prop := delim≠ '"'∧delim≠ '\n'∧delim≠ '\r'

/-- A row is read up to its last cell. -/
theorem readChars_writeRow (out : List (List Code)) (rest : Code) (hsep : Separator delim)
    (hne : row≠[]) (htrim : ∀ cell∈row, trim cell=cell) (hrest : rest.head?≠some '"') (before : List Code) :
    ∃ cells last, before++row=cells++[last]∧trim last=last ∧
      readChars delim (writeRow delim row++rest) ⟨out,before,[],false,false⟩ =
        readChars delim rest ⟨out,cells,last,false,false⟩ := by
  unfold writeRow
  induction row generalizing before with
  | nil => exact absurd rfl hne
  | cons cell row ih =>
    have hcell := htrim cell mem_cons_self
    cases row with
    | nil => exact ⟨before,cell,rfl,hcell,by simpa using readChars_writeCell hrest⟩
    | cons next row =>
      obtain ⟨cells,last,heq,hlast,hread⟩ := ih nofun
        (fun c hc => htrim c (mem_cons_of_mem _ hc)) (before++[cell])
      refine ⟨cells,last,by rw [← heq,append_assoc,singleton_append],hlast,?_⟩
      rw [map_cons,map_cons,intercalate_cons_cons,append_assoc,append_assoc,singleton_append,
        readChars_writeCell (by simpa using hsep.1),readChars]
      simpa only [readChar,hsep.1,if_true,if_false,Bool.false_eq_true,hcell,
        map_cons] using hread

/-- A line break ends the record. -/
theorem readChars_eol {eol : Code} (hsep : Separator delim) (heol : eol=['\n']∨eol=['\r','\n']) :
    readChars delim (eol++rest) ⟨out,row,cur,false,false⟩ =
      readChars delim rest (Reader.endRow ⟨out,row,cur,false,false⟩ false) := by
  obtain ⟨-,hnew,hret⟩ := hsep
  rcases heol with rfl|rfl
  · simp [readChars,readChar,hnew.symm]
  · simp [readChars,readChar,hret.symm,Reader.endRow]

/-- Rows whose cells have no surrounding white space, one of them not empty. -/
def Tabular (row : List Code) : Prop := (∀ cell∈row, trim cell=cell)∧∃ cell∈row, cell≠[]

instance : DecidablePred Tabular := fun _ => inferInstanceAs (Decidable (_∧_))

/-- Reading undoes writing. -/
theorem readChars_writeTable {eol : Code} {closed : Bool} {table : List (List Code)}
    (hsep : Separator delim) (heol : eol=['\n']∨eol=['\r','\n'])
    (htable : ∀ row∈table, Tabular row) :
    ((readChars delim (writeTable delim eol closed table) ⟨out,[],[],false,false⟩).endRow
      false).out=out++table := by
  have hblank : ∀ out, (Reader.endRow ⟨out,[],[],false,false⟩ false)=⟨out,[],[],false,false⟩ :=
    fun _ => rfl
  have hclosed : ∀ r : Reader, r.q=false → r.skip=false →
      ((readChars delim (if closed then eol else []) r).endRow false).out=(r.endRow false).out := by
    rintro ⟨out,row,cur,q,skip⟩ rfl rfl
    cases closed with
    | false => rfl
    | true =>
      have heq : readChars delim (eol++[]) ⟨out,row,cur,false,false⟩=_ := readChars_eol hsep heol
      rw [append_nil] at heq
      rw [if_pos rfl,heq]
      rfl
  unfold writeTable
  induction table generalizing out with
  | nil => simpa [hblank] using hclosed ⟨out,[],[],false,false⟩ rfl rfl
  | cons row table ih =>
    obtain ⟨htrim,cell,hcell,hne⟩ := htable row mem_cons_self
    have hrow : row≠[] := ne_nil_of_mem hcell
    have hend : ∀ cells last, row=cells++[last] → trim last=last →
        Reader.endRow ⟨out,cells,last,false,false⟩ false=⟨out++[row],[],[],false,false⟩ := by
      intro cells last heq hlast
      have hany : row.any (fun c => decide (c≠[]))=true :=
        any_eq_true.mpr ⟨cell,hcell,decide_eq_true hne⟩
      simp only [Reader.endRow,hlast,← heq,hany,if_true]
    cases table with
    | nil =>
      obtain ⟨cells,last,heq,hlast,hread⟩ := readChars_writeRow out
        (if closed then eol else []) hsep hrow htrim
        (by rcases heol with rfl|rfl <;> cases closed <;> decide) []
      rw [map_singleton,intercalate_singleton,hread,hclosed _ rfl rfl,hend cells last heq hlast]
    | cons next table =>
      obtain ⟨cells,last,heq,hlast,hread⟩ := readChars_writeRow out
        (eol++(intercalate eol ((next::table).map (writeRow delim)) ++
          if closed then eol else [])) hsep hrow htrim (by rcases heol with rfl|rfl <;> simp) []
      rw [map_cons,map_cons,intercalate_cons_cons,append_assoc,append_assoc,← map_cons,hread,
        readChars_eol hsep heol,hend cells last heq hlast,
        ih fun row hrow => htable row (mem_cons_of_mem _ hrow),append_assoc,singleton_append]

end Quoting

/-- Rows and records left out, over `taken` data records. -/
structure Accounts (rows : List TrackingRow) (skipped : SkipReason → ℕ) (taken : ℕ) : Prop where
  total : rows.length+skipped .blank+skipped .amazon+skipped .duplicate=taken
  apart : (rows.map fun row => (w.toUpperCase row.code,row.tracking)).Nodup

section Accounting

variable {w} {idx : Columns} {p : Parsed} {taken : ℕ}

theorem Accounts.skip (h : Accounts w p.rows p.skipped taken) (line : ℕ) (code tracking : Code)
    (reason : SkipReason) :
    Accounts w (p.skip line code tracking reason).rows (p.skip line code tracking reason).skipped
      (taken+1) := by
  refine ⟨?_,h.apart⟩
  have htotal := h.total
  cases reason <;> simp [Parsed.skip] <;> omega

/-- One data record is counted once. -/
theorem Accounts.takeRecord (h : Accounts w p.rows p.skipped taken)
    (hseen : ∀ row∈p.rows, rowKey w row.code row.tracking∈p.seen) (line : ℕ) (rec : List Code) :
    Accounts w (takeRecord w idx line p rec).rows (takeRecord w idx line p rec).skipped (taken+1) ∧
      ∀ row∈(takeRecord w idx line p rec).rows,
        rowKey w row.code row.tracking∈(takeRecord w idx line p rec).seen := by
  unfold TrackingFiles.takeRecord
  dsimp only
  split
  · exact ⟨h.skip ..,hseen⟩
  split
  · exact ⟨h.skip ..,hseen⟩
  split
  · exact ⟨h.skip ..,hseen⟩
  next hnew =>
  refine ⟨⟨?_,?_⟩,fun row hrow => ?_⟩
  · have htotal := h.total
    simp only [length_append,length_singleton]
    omega
  · rw [map_append,map_singleton]
    refine nodup_concat_iff.mpr ⟨fun hkey => hnew ?_,h.apart⟩
    obtain ⟨row,hrow,heq⟩ := mem_map.mp hkey
    obtain ⟨hord,htra⟩ := Prod.mk.inj heq
    have hold := hseen row hrow
    rw [rowKey,hord,htra] at hold
    exact contains_iff_mem.mpr hold
  · rcases mem_append.mp hrow with hold|hrow
    · exact mem_append_left _ (hseen row hold)
    · rw [mem_singleton.mp hrow]
      exact mem_append_right _ (mem_singleton_self _)

theorem Accounts.takeRecords {records : List (List Code)}
    (h : Accounts w p.rows p.skipped taken)
    (hseen : ∀ row∈p.rows, rowKey w row.code row.tracking∈p.seen) (line : ℕ) :
    Accounts w (takeRecords w idx line records p).rows (takeRecords w idx line records p).skipped
      (taken+records.length) := by
  induction records generalizing p taken line with
  | nil => exact h
  | cons rec records ih =>
    rw [length_cons,Nat.add_comm records.length,← Nat.add_assoc]
    obtain ⟨hnext,hkeys⟩ := @Accounts.takeRecord w idx p taken h hseen line rec
    exact ih hnext hkeys (line+1)

end Accounting

/-- Text forms the reader takes apart as they were written. -/
def ReadsBack (delim : Char) (eol : Code) (closed : Bool) (table : List (List Code)) : Prop :=
  csvRecords (writeTable delim eol closed table)=table

/-- Quoting is undone where the separator is guessed, and every data record is
a row or is counted as left out. -/
theorem tracking_files_read (w : World) {delim : Char} {eol : Code} {table : List (List Code)}
    (hdelim : delim∈[',','\t',';']) (heol : eol=['\n']∨eol=['\r','\n'])
    (htable : ∀ row∈table, Tabular row) (closed : Bool)
    (hguess : guessDelimiter (writeTable delim eol closed table)=delim) :
    ReadsBack delim eol closed table∧∀ text,
      Accounts w (parseTrackingFile w text).1 (parseTrackingFile w text).2.skipped
        (dataRecords w text).length := by
  constructor
  · have hsep : Separator delim := by
      simp only [mem_cons,not_mem_nil,or_false] at hdelim
      rcases hdelim with rfl|rfl|rfl <;> exact ⟨by decide,by decide,by decide⟩
    unfold ReadsBack csvRecords
    rw [hguess,readChars_writeTable hsep heol htable,nil_append]
  · intro text
    have hnone : Accounts w [] (fun _ => 0) 0 := ⟨rfl,nodup_nil⟩
    rw [← Nat.zero_add (dataRecords w text).length]
    exact hnone.takeRecords (p := ⟨[],[],fun _ => 0,[]⟩) nofun _

/-- A sheet with a separator and quotes in one cell. -/
def sheet : List (List Code) :=
  [["order", "tracking"],["#1, \"a\"", "x;y"]].map fun row => row.map String.toList

theorem tracking_files_read_quoted : csvRecords (writeTable ',' ['\n'] true sheet)=sheet ∧
    ((parseTrackingFile ⟨id,id⟩ (writeTable ',' ['\n'] true sheet)).1.map fun r => r.code) =
      ["#1, \"a\"".toList] :=
  ⟨(tracking_files_read ⟨id,id⟩ (by decide) (.inl rfl) (by decide) true (by decide)).1,by decide⟩

/-- Two cells, one with a tab inside. -/
def tabbed : List (List Code) := [["a\tb".toList,"c".toList]]

/-- A tab inside a cell is taken for the separator. -/
theorem tracking_files_tab : (∀ row∈tabbed, Tabular row∧2≤row.length) ∧
    ¬ ReadsBack ',' ['\n'] true tabbed := by
  unfold ReadsBack
  decide

end SellRight.TrackingFiles
