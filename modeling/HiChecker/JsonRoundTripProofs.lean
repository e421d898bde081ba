import HiChecker.DumpLedgerProofs
import HiChecker.JsonCodeProofs

/-!
# What a reader makes of the texts

The module writes JSON in three places: the `.jsleaklist` file, the leak list and the file
names of a report, and the text that `check` returns. A reader that knows only JSON gets
back what the module had. The file is opened without truncating it, so this holds of the file
as long as nothing but white space is left behind the new text.

* **`recordValue`**, **`leaksValue`**, **`namesValue`**, **`resultValue`** — the values.
* **`Writes`** — a text is that of a value; **`Writes.readText`**: then it is read back.
* **`Holds`**, **`holds_iff`** — the bytes of a file are such a text, with white space at most
  behind it.
* **`heapHash`** — the hash that the file states, from the heap file of the dump.
* **`Lists`** — the `.jsleaklist` file of a dump, from what the file held when it was opened.
* **`texts_read_back`** — the file and the report of every dump, in every state.
-/

namespace JsonRoundTrip

open Transition JsValue WatcherConfig FileStore DumpFile TimerQueue Watcher
open LeakAgreement LeakReport DumpLedger JsonCode
open LeakListText (leakListText hashText)
open LeakRound (Hash ObjMsg getLeakList)

-- ── The texts are those of values ─────────────────────────────────────────────────

/-- The escaping of the dump's texts is one the reader undoes. -/
def jsonEscaping : Escaping where
  escape := Json.escape
  readChar := LeakListText.readChar
  readChar_escape := LeakListText.readChar_escape
  startsOff := LeakListText.escape_startsOff

/-- What a JSON reader makes of a whole text. -/
def readText (text : String) : Option Value := read jsonEscaping text.toList

/-- The value of a hash: `null` when the object had none. -/
def hashValue : Hash → Value
  | none => .null
  | some hash => .number hash

/-- The value of a leaked object, with its fields in the order written. -/
def recordValue (obj : ObjMsg) : Value :=
  .object [("hash", hashValue obj.hash), ("name", .string obj.name), ("msg", .string obj.msg)]

/-- The value of the list of leaks. -/
def leaksValue (leaks : List ObjMsg) : Value := .array (leaks.map recordValue)

/-- The value of a list of file names. -/
def namesValue (names : List String) : Value := .array (names.map Value.string)

/-- The value of a leak list: the version is there when the heap was dumped. -/
def resultValue (isRawHeap : Bool) (snapshotHash : String) (leaks : List ObjMsg) : Value :=
  let fields := [("snapshot_hash", .string snapshotHash), ("leakObjList", leaksValue leaks)]
  .object (if isRawHeap then ("version", .string "2.0.0") :: fields else fields)

/-- A text that writes a value. -/
def Writes (text : String) (v : Value) : Prop := text.toList = write jsonEscaping v

/-- What is written is read back. -/
theorem Writes.readText {text : String} {v : Value} (h : Writes text v) :
    readText text = some v := by
  show read jsonEscaping text.toList = some v
  rw [h]
  exact read_write jsonEscaping v

/-- `Json.quote` writes a string as the writer does. -/
theorem toList_quote (s : String) : (Json.quote s).toList = writeString jsonEscaping s :=
  LeakListText.toList_quote s

/-- A quoted string is the string. -/
theorem writes_quote (s : String) : Writes (Json.quote s) (.string s) := by
  rw [Writes, toList_quote, write]

/-- `toString` writes an integer as the writer does. -/
theorem toList_int (i : Int) : (toString i).toList = writeInt i := by
  rw [Int.toString_eq_repr, Int.repr_eq_if, writeInt]
  by_cases hneg : i < 0
  · have habs : (-i).toNat = i.natAbs := by omega
    rw [if_neg (by omega), if_pos hneg, String.toList_append, Nat.toList_repr, habs]
    rfl
  · have habs : i.toNat = i.natAbs := by omega
    rw [if_pos (by omega), if_neg hneg, Nat.toList_repr, habs]
    rfl

/-- A hash is its number, or `null`. -/
theorem writes_hash (hash : Hash) : Writes (hashText hash) (hashValue hash) := by
  cases hash with
  | none =>
      rw [Writes, hashValue, write]
      rfl
  | some i =>
      rw [Writes, hashValue, write]
      exact toList_int i

/-- An array is written item by item. -/
theorem writes_array {α : Type} {text : α → String} {value : α → Value}
    (h : ∀ a, Writes (text a) (value a)) (items : List α) :
    Writes (Json.array (items.map text)) (.array (items.map value)) := by
  have hitems : items.map (fun a => (text a).toList)
      = items.map (fun a => write jsonEscaping (value a)) :=
    List.map_congr_left (fun a _ => h a)
  rw [Writes, write_array, writeList, List.map_map]
  simp only [Json.array, String.toList_append, String.toList_intercalate, List.map_map]
  show ['['] ++ [','].intercalate (items.map (fun a => (text a).toList)) ++ [']'] = _
  rw [hitems]
  rfl

/-- A field of an object, and the value that its text writes. -/
theorem writes_object {fields : List (String × String)} {values : List (String × Value)}
    (h : List.Forall₂ (fun f g => f.1 = g.1 ∧ Writes f.2 g.2) fields values) :
    Writes (Json.object fields) (.object values) := by
  have hfields : fields.map (fun f => (Json.quote f.1 ++ ":" ++ f.2).toList)
      = values.map (writeField jsonEscaping) := by
    induction h with
    | nil => rfl
    | cons hfield _ ih =>
        rw [List.map_cons, List.map_cons, ih, writeField, ← hfield.1, ← hfield.2]
        simp only [String.toList_append, toList_quote, List.append_assoc]
        rfl
  have htext : (Json.object fields).toList = ['\x7b'] ++ [','].intercalate
      (fields.map (fun f => (Json.quote f.1 ++ ":" ++ f.2).toList)) ++ ['\x7d'] := by
    rw [Json.object, String.toList_append, String.toList_append, String.toList_intercalate,
      List.map_map]
    rfl
  rw [Writes, htext, hfields, write_object]
  rfl

/-- A leaked object is its record. -/
theorem writes_record (obj : ObjMsg) : Writes (objMsgText obj) (recordValue obj) :=
  writes_object (.cons ⟨rfl, writes_hash obj.hash⟩
    (.cons ⟨rfl, writes_quote obj.name⟩ (.cons ⟨rfl, writes_quote obj.msg⟩ .nil)))

/-- The list of leaks is an array of records. -/
theorem writes_leaks (leaks : List ObjMsg) : Writes (leakListText leaks) (leaksValue leaks) :=
  writes_array writes_record leaks

/-- A list of file names is an array of strings. -/
theorem writes_names (names : List String) : Writes (pathsText names) (namesValue names) :=
  writes_array writes_quote names

/-- A leak list is one object. -/
theorem writes_result (isRawHeap : Bool) (snapshotHash : String) (leaks : List ObjMsg) :
    Writes (resultText isRawHeap snapshotHash leaks)
      (resultValue isRawHeap snapshotHash leaks) := by
  have hfields : List.Forall₂ (fun (f : String × String) (g : String × Value) =>
      f.1 = g.1 ∧ Writes f.2 g.2)
      [("snapshot_hash", Json.quote snapshotHash), ("leakObjList", leakListText leaks)]
      [("snapshot_hash", .string snapshotHash), ("leakObjList", leaksValue leaks)] :=
    .cons ⟨rfl, writes_quote snapshotHash⟩ (.cons ⟨rfl, writes_leaks leaks⟩ .nil)
  cases isRawHeap with
  | true => exact writes_object (.cons ⟨rfl, writes_quote "2.0.0"⟩ hfields)
  | false => exact writes_object hfields

/-- A leak list is no number, so no digit can follow on it. -/
theorem resultValue_not_number (isRawHeap : Bool) (snapshotHash : String) (leaks : List ObjMsg)
    (i : Int) : resultValue isRawHeap snapshotHash leaks ≠ .number i := by
  intro h
  simp only [resultValue] at h
  exact Value.noConfusion h

-- ── The bytes of a file ───────────────────────────────────────────────────────────

/-- The bytes are a text in UTF-8, and a reader makes this value of it. -/
def Holds (bytes : List UInt8) (v : Value) : Prop :=
  ∃ text, bytes = utf8 text ∧ readText text = some v

/-- The bytes of a text are those of its characters, one after another. -/
theorem utf8_eq (text : String) : utf8 text = text.toList.flatMap String.utf8EncodeChar := by
  show text.toByteArray.data.toList = _
  rw [← String.utf8Encode_toList, List.utf8Encode, List.toList_data_toByteArray]

/-- A text whose bytes start with those of another one starts with it. -/
theorem prefix_of_utf8 {text text' : String} {tail : List UInt8}
    (h : utf8 text ++ tail = utf8 text') :
    ∃ rest, text'.toList = text.toList ++ rest ∧ rest.flatMap String.utf8EncodeChar = tail := by
  have hbytes : text.toList.utf8Encode ++ ⟨tail.toArray⟩ = text'.toList.utf8Encode := by
    rw [String.utf8Encode_toList, String.utf8Encode_toList]
    refine ByteArray.ext ?_
    rw [ByteArray.data_append, ← Array.toList_inj, Array.toList_append]
    exact h
  obtain ⟨rest, hrest⟩ := List.isPrefix_of_utf8Encode_append_eq_utf8Encode _ hbytes
  refine ⟨rest, hrest.symm, ?_⟩
  rw [utf8_eq text, utf8_eq text', ← hrest, List.flatMap_append] at h
  exact (List.append_cancel_left h).symm

/-- A byte of white space. -/
def isSpaceByte (b : UInt8) : Bool := b = 0x20 || b = 0x09 || b = 0x0a || b = 0x0d

/-- White space takes one byte a character. -/
theorem spaces_iff (tail : List UInt8) :
    (∃ rest : List Char, (∀ c ∈ rest, isSpace c = true)
      ∧ rest.flatMap String.utf8EncodeChar = tail) ↔ ∀ b ∈ tail, isSpaceByte b = true := by
  constructor
  · rintro ⟨rest, hrest, rfl⟩ b hb
    obtain ⟨c, hc, hbc⟩ := List.mem_flatMap.mp hb
    have hspace := hrest c hc
    simp only [isSpace, Bool.or_eq_true, decide_eq_true_iff] at hspace
    rcases hspace with ((rfl | rfl) | rfl) | rfl
    all_goals
      rw [List.mem_singleton.mp hbc]
      decide
  · intro h
    induction tail with
    | nil => exact ⟨[], fun _ hc => absurd hc List.not_mem_nil, rfl⟩
    | cons b tail ih =>
        obtain ⟨rest, hrest, htail⟩ := ih (fun b' hb' => h b' (List.mem_cons_of_mem b hb'))
        obtain ⟨c, hc, hbyte⟩ : ∃ c, isSpace c = true ∧ String.utf8EncodeChar c = [b] := by
          have hspace := h b List.mem_cons_self
          simp only [isSpaceByte, Bool.or_eq_true, decide_eq_true_iff] at hspace
          rcases hspace with ((rfl | rfl) | rfl) | rfl
          · exact ⟨'\x20', rfl, rfl⟩
          · exact ⟨'\x09', rfl, rfl⟩
          · exact ⟨'\x0a', rfl, rfl⟩
          · exact ⟨'\x0d', rfl, rfl⟩
        refine ⟨c :: rest, ?_, ?_⟩
        · intro c' hc'
          rcases List.mem_cons.mp hc' with rfl | hc'
          · exact hc
          · exact hrest c' hc'
        · rw [List.flatMap_cons, hbyte, htail]
          rfl

/-- **A text with something behind it** is a text of its value, when that shows where it ends,
    as long as only white space is behind it, and of no value otherwise. -/
theorem holds_iff {text : String} {v : Value} (hv : ∀ i, v ≠ .number i) (h : Writes text v)
    (tail : List UInt8) (v' : Value) :
    Holds (utf8 text ++ tail) v' ↔ v' = v ∧ ∀ b ∈ tail, isSpaceByte b = true := by
  constructor
  · rintro ⟨text', hbytes, hread⟩
    obtain ⟨rest, hrest, htail⟩ := prefix_of_utf8 hbytes
    rw [readText, hrest, h, read_write_append jsonEscaping hv] at hread
    obtain ⟨hspace, heq⟩ := Option.ite_none_right_eq_some.mp hread
    exact ⟨(Option.some.inj heq).symm,
      (spaces_iff tail).mp ⟨rest, skipSpace_eq_nil_iff.mp hspace, htail⟩⟩
  · rintro ⟨rfl, hspaces⟩
    obtain ⟨rest, hrest, rfl⟩ := (spaces_iff tail).mpr hspaces
    refine ⟨String.ofList (text.toList ++ rest), ?_, ?_⟩
    · rw [utf8_eq text, utf8_eq (String.ofList _), String.toList_ofList, List.flatMap_append]
    · rw [readText, String.toList_ofList, h, read_write_append jsonEscaping hv,
        if_pos (skipSpace_eq_nil_iff.mpr hrest)]

-- ── The file of a dump ────────────────────────────────────────────────────────────

section Files

variable {Dir : Type} [DecidableEq Dir] (host : Host Dir)

/-- The snapshot hash of a dump: that of its heap file, or none when the heap is not dumped. -/
def heapHash (filePath : String) (opened : DumpState Dir) : Option String :=
  if opened.dumpStatus then
    (opened.files.get (host.dirOf filePath, getHeapBaseName host opened ++ ".rawheap")).map
      (fun heap => toHex (host.sha256 heap))
  else some ""

/-- The text of a dump is that of its hash and its leaks: opening the leak list leaves the heap
    file alone. -/
theorem writtenText_eq (out : Outside) (watchObjMap : LeakRound.WatchMap) (filePath : String)
    (d : DumpState Dir) :
    writtenText host out watchObjMap filePath d
      = (heapHash host filePath (prepared host out filePath d)).map
          (fun hash => resultText true hash (getLeakList watchObjMap)) := by
  generalize hopened : prepared host out filePath d = opened
  have hne : jsleaklistPath host filePath opened
      ≠ (host.dirOf filePath, getHeapBaseName host opened ++ ".rawheap") := by
    intro heq
    have hname := congrArg String.toList (congrArg Prod.snd heq)
    simp only [jsleaklistPath, String.toList_append] at hname
    exact absurd (List.append_cancel_left hname) (by decide)
  simp only [writtenText, hopened, heapHash, getHeapDumpSHA256_eq, get_openCreate, if_neg hne]

/-- The file of a dump, unless it was evicted, is the text of its value over what the file held
    when it was opened. It holds that value and no other one when only white space is left of
    the old content, and no value at all when anything else is. -/
def Lists (hash : Option String) (leaks : List ObjMsg) (path : Path Dir)
    (opened files : Files Dir) : Prop :=
  ∃ text snapshotHash, hash = some snapshotHash
    ∧ Writes text (resultValue true snapshotHash leaks)
    ∧ ∀ bytes, files.get path = some bytes →
        let left := ((opened.get path).getD []).drop (utf8 text).length
        bytes = utf8 text ++ left
          ∧ ∀ v, Holds bytes v ↔ v = resultValue true snapshotHash leaks
              ∧ ∀ b ∈ left, isSpaceByte b = true

/-- **The `.jsleaklist` file** of a dump that reports. -/
theorem lists_getJsleaklistFile {out : Outside} {session : Session} {filePath : String}
    {jsCallback : Bool} {d : DumpState Dir} {report : ReportRawHeap}
    (h : .reportRawHeap report
      ∈ (getJsleaklistFile host out session filePath true true jsCallback d).2) :
    let opened := prepared host out filePath d
    let path := jsleaklistPath host filePath opened
    let result := getJsleaklistFile host out session filePath true true jsCallback d
    Lists (heapHash host filePath opened) (getLeakList session.watchObjMap) path opened.files
        result.1.files
      ∧ (.retention ∉ result.2 → result.1.files.has path = true) := by
  intro opened path result
  obtain ⟨-, text, htext⟩ := reports_getJsleaklistFile host h
  obtain ⟨hsame, hthere⟩ := file_getJsleaklistFile host true jsCallback htext
  rw [writtenText_eq] at htext
  obtain ⟨snapshotHash, hhash, rfl⟩ := Option.map_eq_some_iff.mp htext
  have hwrites := writes_result true snapshotHash (getLeakList session.watchObjMap)
  refine ⟨⟨_, snapshotHash, hhash, hwrites, fun bytes hbytes => ⟨hsame bytes hbytes, fun v => ?_⟩⟩,
    fun hret => (OrderedMapLib.OrderedMap.has_iff _ _).mpr ⟨_, hthere hret⟩⟩
  rw [hsame bytes hbytes]
  exact holds_iff (resultValue_not_number _ _ _) hwrites _ v

/-- A report names that file first, and the heap file when there is one. -/
theorem names_getJsleaklistFile {out : Outside} {session : Session} {filePath : String}
    {jsCallback : Bool} {d : DumpState Dir} {report : ReportRawHeap}
    (h : .reportRawHeap report
      ∈ (getJsleaklistFile host out session filePath true true jsCallback d).2) :
    let opened := prepared host out filePath d
    let path := filePath ++ "/" ++ getHeapBaseName host opened
    report.leakListPath
      = pathsText
          [path ++ ".jsleaklist", if opened.dumpStatus then path ++ ".rawheap" else ""] := by
  intro opened path
  obtain ⟨-, text, htext⟩ := reports_getJsleaklistFile host h
  rw [getJsleaklistFile_writes] at h
  simp only [htext] at h
  obtain ⟨d', rfl, hnames⟩ := reports_deliver host h
  show pathsText d'.leakListPath = _
  rw [hnames rfl]
  rfl

end Files

-- ── Every step of the watcher ─────────────────────────────────────────────────────

section Steps

variable {Dir : Type} [DecidableEq Dir] {plat : Platform Dir}

/-- This call of `getJsleaklistFile` did what the step did with dumps. -/
def Described (plat : Platform Dir) (w w' : World Dir) (es : List Event)
    (call : Outside × String × DumpState Dir) : Prop :=
  ∃ session jsCallback, session.watchObjMap = w.watchObjMap
    ∧ let result :=
        getJsleaklistFile plat.host call.1 session call.2.1 true true jsCallback call.2.2
      w'.dump = result.1 ∧ dumpEvents es = result.2

/-- The call that a closure makes, with dumps off. -/
def tickCall (out : Surroundings) (task : DumpTask) (w : World Dir) :
    Outside × String × DumpState Dir :=
  (out.dump, task.filePath, { w.dump with dumpStatus := false })

/-- A report at a call describes a dump that left the heap alone. -/
theorem described_callDumpInner {out : Surroundings} {task : DumpTask} {w : World Dir}
    {report : ReportRawHeap}
    (h : .reportRawHeap report ∈ dumpEvents (callDumpInner plat out task w).2) :
    out.dump.status = false ∧ Described plat w (callDumpInner plat out task w).1
      (callDumpInner plat out task w).2 (tickCall out task w) := by
  have hevents : dumpEvents (callDumpInner plat out task w).2
      = (dumpInner plat.host out.dump w.session task.filePath true true task.callback.truthy
        w.dump).2 := dumpEvents_dump _
  rw [hevents] at h
  obtain ⟨hoff, hinner⟩ := dumpInner_of_report h
  rw [hoff] at hinner
  refine ⟨hoff, w.session, task.callback.truthy, rfl, ?_, ?_⟩
  · show _ = (getJsleaklistFile plat.host out.dump w.session task.filePath true true
      task.callback.truthy { w.dump with dumpStatus := false }).1
    rw [← hinner]
    rfl
  · rw [hevents, hinner]
    rfl

/-- A report at a dump tick describes the call that the tick made. -/
theorem described_dumpTask {out : Surroundings} {task : DumpTask} {w : World Dir}
    {report : ReportRawHeap}
    (h : .reportRawHeap report ∈ dumpEvents (dumpTask plat out task w).2) :
    out.dump.status = false ∧ Described plat w (dumpTask plat out task w).1
      (dumpTask plat out task w).2 (tickCall out task w) := by
  simp only [dumpTask] at h ⊢
  split at h
  · rename_i hobj
    rw [if_pos hobj]
    split at h
    · rename_i hround
      rw [if_pos hround]
      rw [dumpEvents_round] at h
      obtain ⟨hoff, session, jsCallback, hmap, hdump, hevents⟩ := described_callDumpInner h
      refine ⟨hoff, session, jsCallback, hmap, hdump, ?_⟩
      rw [dumpEvents_round]
      exact hevents
    · rw [dumpEvents_other (fun _ => rfl)] at h
      exact absurd h List.not_mem_nil
  · rename_i hobj
    rw [if_neg hobj]
    split at h
    · exact absurd h List.not_mem_nil
    · rename_i hsize
      rw [if_neg hsize]
      exact described_callDumpInner h

/-- A delivery that reports runs the dump closure. -/
theorem described_processEvent {out : Surroundings} {t : Timer EventId} {w : World Dir}
    {report : ReportRawHeap}
    (h : .reportRawHeap report ∈ dumpEvents (processEvent plat out t w).2) :
    ∃ task, dumpRun w t = some task ∧ out.dump.status = false
      ∧ Described plat w (processEvent plat out t w).1 (processEvent plat out t w).2
          (tickCall out task w) := by
  have heffect := processEvent_effect plat out t w
  generalize processEvent plat out t w = result at heffect h ⊢
  cases heffect with
  | dropped hrun => exact absurd h List.not_mem_nil
  | noDump hrun hevent => exact absurd h List.not_mem_nil
  | dumped task hrun hevent htask =>
      refine ⟨task, ?_, described_dumpTask h⟩
      simp only [dumpRun, hevent, hrun, htask, if_true]
  | noGc hrun hevent htask => exact absurd h List.not_mem_nil
  | collected task hrun hevent htask =>
      have hquiet := (quiet_gcTask plat out (t.tick w.now) task w).returns
      exact absurd h (hquiet.not_report report)

/-- **Every report** comes from the call of `getJsleaklistFile` that is read off the step. -/
theorem described_step {w w' : World Dir} {a : Watcher.Input Dir} {es : List Event}
    (hs : Watcher.step plat w a = some (w', es)) {report : ReportRawHeap}
    (h : .reportRawHeap report ∈ dumpEvents es) :
    ∃ call, describes w a = some call ∧ Described plat w w' es call := by
  cases htaken : takenBy w a with
  | some task =>
      cases a with
      | deliver out i =>
          obtain ⟨t, queue, hdeliver, rfl, rfl⟩ := step_deliver hs
          obtain ⟨task', hrun, hoff, hdescribed⟩ := described_processEvent h
          have hrun' : dumpRun w t = some task' := hrun
          refine ⟨tickCall out task' w, ?_, hdescribed⟩
          simp only [describes, hoff, hdeliver, hrun', Bool.false_eq_true, if_false,
            Option.map_some, tickCall]
      | _ => exact absurd htaken.symm (Option.some_ne_none task)
  | none =>
      by_cases hdone : ∃ out k, a = .dumpDone out k
      · obtain ⟨out, k, rfl⟩ := hdone
        obtain ⟨task, hk, rfl, rfl⟩ := step_dumpDone hs
        refine ⟨(out.dump, task.filePath, w.dump), ?_, w.session, task.callback.truthy, rfl, rfl,
          dumpEvents_dump _⟩
        simp only [describes, hk, Option.map_some]
      · have hquiet := (quiet_step plat hs htaken
          (fun out k heq => hdone ⟨out, k, heq⟩)).returns
        exact absurd h (hquiet.not_report report)

/-- **What the module writes, a JSON reader gets back**: from each report the leaks, whose
    number the report states, and the names of the two files; and from the file named first
    the version, the hash of the heap file and the objects that were watched. The file is readable
    exactly when only white space is left of what it held when it was opened. -/
theorem texts_read_back {w w' : World Dir} {a : Watcher.Input Dir} {es : List Event}
    (hs : Watcher.step plat w a = some (w', es)) {report : ReportRawHeap}
    (h : Event.dump (.reportRawHeap report) ∈ es) :
    readText report.leakList = some (leaksValue w'.appState.intersection)
      ∧ report.leakObjectCount = w'.appState.intersection.length
      ∧ ∃ out filePath d, describes w a = some (out, filePath, d)
          ∧ let opened := prepared plat.host out filePath d
            let name := filePath ++ "/" ++ getHeapBaseName plat.host opened
            let path := jsleaklistPath plat.host filePath opened
            (∀ paths ∈ [report.leakListPath, report.dynamicRawheapPath, report.staticRawheapPath],
              readText paths = some (namesValue
                [name ++ ".jsleaklist", if opened.dumpStatus then name ++ ".rawheap" else ""]))
            ∧ Lists (heapHash plat.host filePath opened) (getLeakList w.watchObjMap) path
                opened.files w'.dump.files
            ∧ (Event.dump .retention ∉ es → w'.dump.files.has path = true) := by
  have hreport : .reportRawHeap report ∈ dumpEvents es := mem_dumpEvents.mpr h
  obtain ⟨fileList, -, hleaks, hdynamic, hstatic, hpaths⟩ := consistent_step hs report hreport
  obtain ⟨⟨out, filePath, d⟩, hcall, session, jsCallback, hmap, hdump, hevents⟩ :=
    described_step hs hreport
  rw [hevents] at hreport
  have hnames := names_getJsleaklistFile plat.host hreport
  obtain ⟨hlists, hthere⟩ := lists_getJsleaklistFile plat.host hreport
  refine ⟨?_, hleaks.2, out, filePath, d, hcall, ?_, ?_, ?_⟩
  · rw [hleaks.1]
    exact (writes_leaks _).readText
  · intro paths hmem
    rw [hdynamic, hstatic, ← hpaths] at hmem
    simp only [List.mem_cons, List.not_mem_nil, or_false, or_self] at hmem
    rw [hmem, hnames]
    exact (writes_names _).readText
  · rw [hdump, ← hmap]
    exact hlists
  · intro hret
    rw [hdump]
    exact hthere (fun hmem => hret (mem_dumpEvents.mp (hevents ▸ hmem)))

end Steps

/-- One object is watched: the report of its leak is read, and so is the file. -/
theorem texts_read_back_oneLeak :
    ∃ (w w' : World String) (es : List Event) (report : ReportRawHeap) (path : Path String)
      (bytes : List UInt8),
      Watcher.step plainPlatform w (.deliver dumpsOff 1) = some (w', es)
        ∧ Event.dump (.reportRawHeap report) ∈ es ∧ report.leakObjectCount = 1
        ∧ readText report.leakList = some (leaksValue w'.appState.intersection)
        ∧ w'.dump.files.get path = some bytes
        ∧ Holds bytes (resultValue true "" (getLeakList w.watchObjMap)) := by
  obtain ⟨p, hp⟩ : ∃ p, exec (watcher plainPlatform DumpIdentity.noFiles) anyStep
      (untilDump []) = some p := ⟨_, rfl⟩
  obtain ⟨q, hq, hany, hret⟩ : ∃ q, Watcher.step plainPlatform p.1 (.deliver dumpsOff 1) = some q
      ∧ q.2.any (reportsCount 1) = true ∧ Event.dump .retention ∉ q.2 := by
    obtain rfl := Option.some.inj hp
    refine ⟨_, rfl, ?_, ?_⟩
    · decide +kernel
    · decide +kernel
  obtain ⟨call, hcall, hhash, hnew⟩ : ∃ call, describes p.1 (.deliver dumpsOff 1) = some call
      ∧ heapHash plainPlatform.host call.2.1
          (prepared plainPlatform.host call.1 call.2.1 call.2.2) = some ""
      ∧ ((prepared plainPlatform.host call.1 call.2.1 call.2.2).files.get
          (jsleaklistPath plainPlatform.host call.2.1
            (prepared plainPlatform.host call.1 call.2.1 call.2.2))).isNone = true := by
    obtain rfl := Option.some.inj hp
    exact ⟨_, rfl, by decide +kernel, by decide +kernel⟩
  obtain ⟨e, hmem, he⟩ := List.any_eq_true.mp hany
  cases e with
  | thrown t => exact absurd he Bool.false_ne_true
  | round tick event => exact absurd he Bool.false_ne_true
  | dump event =>
      cases event with
      | reportRawHeap report =>
          obtain ⟨hleaks, hcount, out, filePath, d, hcall', -,
            ⟨text, snapshotHash, hhash', -, hfile⟩, hthere⟩ := texts_read_back hq hmem
          obtain rfl := Option.some.inj (hcall.symm.trans hcall')
          obtain rfl := Option.some.inj (hhash.symm.trans hhash')
          obtain ⟨bytes, hbytes⟩ := (OrderedMapLib.OrderedMap.has_iff _ _).mp (hthere hret)
          obtain ⟨-, hholds⟩ := hfile bytes hbytes
          refine ⟨p.1, q.1, q.2, report, _, bytes, hq, hmem, of_decide_eq_true he, hleaks, hbytes,
            (hholds _).mpr ⟨rfl, ?_⟩⟩
          rw [Option.isNone_iff_eq_none.mp hnew, Option.getD_none, List.drop_nil]
          exact fun b hb => absurd hb List.not_mem_nil
      | _ => exact absurd he Bool.false_ne_true

end JsonRoundTrip
