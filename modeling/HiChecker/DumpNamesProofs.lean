import HiChecker.DumpIdentityProofs
import Mathlib.Data.List.TakeWhile

/-!
# The names of dump files, read back

Everything that the clean-up decides, it decides on names. A name that a dump makes is
`jsleakwatcher-<pid>-<tid>-<timestamp>` and a suffix; two parties in one directory are
told apart by nothing else.

* **`WatcherName`** — a name of that form, whoever made it.
* **`readPrefix`** — reads the process thread back off a name; **`isWatcherName`** decides
  the form with it.
* **`getHeapPrefix_inj`** — names of two parties never agree beyond the prefix.
* **`append_suffix_inj`** — what stands before a suffix is determined as well.
* **`toStr_plain_iff`** — a parsed timestamp is printed in plain digits below 10²¹.
* **`getTimestampByFileName_append`** — the files of one base name have one timestamp.
-/

namespace DumpNames

open JsValue DumpFile DumpIdentity

-- ── Names ─────────────────────────────────────────────────────────────────────────

/-- The name of a file of the dump that a process thread started at a time. -/
def fileName (process : Process) (time : Nat) (suffix : String) : String :=
  getHeapPrefix process ++ toString time ++ suffix

/-- The watcher's own files: `jsleakwatcher-<pid>-<tid>-<timestamp>` and a suffix. -/
def WatcherName (name : String) : Prop :=
  ∃ process time suffix, suffix ∈ dumpSuffixes ∧ name = fileName process time suffix

theorem watcherName (process : Process) (time : Nat) {suffix : String}
    (hs : suffix ∈ dumpSuffixes) : WatcherName (fileName process time suffix) :=
  ⟨process, time, suffix, hs, rfl⟩

-- ── Reading a name ────────────────────────────────────────────────────────────────

/-- The numeral at the front, and what follows it. -/
def readNat (cs : List Char) : Option (Nat × List Char) :=
  if cs.takeWhile Char.isDigit = [] then none
  else some (Nat.ofDigitChars 10 (cs.takeWhile Char.isDigit) 0, cs.dropWhile Char.isDigit)

/-- A numeral with a hyphen behind it. -/
def readField (cs : List Char) : Option (Nat × List Char) :=
  match readNat cs with
  | some (n, '-' :: rest) => some (n, rest)
  | _ => none

/-- The process thread whose prefix a name has, and what follows the prefix. -/
def readPrefix (cs : List Char) : Option (Process × List Char) :=
  if "jsleakwatcher-".toList.isPrefixOf cs then
    match readField (cs.drop "jsleakwatcher-".toList.length) with
    | none => none
    | some (pid, rest) =>
        match readField rest with
        | none => none
        | some (tid, rest) => some (⟨pid, tid⟩, rest)
  else none

/-- The name is one that a dump makes: read it, and print what was read. -/
def isWatcherName (name : String) : Bool :=
  match readPrefix name.toList with
  | none => false
  | some (process, rest) =>
      match readNat rest with
      | none => false
      | some (time, suffix) =>
          dumpSuffixes.contains (String.ofList suffix)
            && name == fileName process time (String.ofList suffix)

/-- **A printed numeral is read back** where no digit follows. -/
theorem readNat_toDigits (n : Nat) {c : Char} (hc : c.isDigit = false) (rest : List Char) :
    readNat (Nat.toDigits 10 n ++ c :: rest) = some (n, c :: rest) := by
  have hdigits : ∀ d ∈ Nat.toDigits 10 n, d.isDigit = true :=
    fun _ hd => Nat.isDigit_of_mem_toDigits (by decide) (by decide) hd
  have htake : (Nat.toDigits 10 n ++ c :: rest).takeWhile Char.isDigit = Nat.toDigits 10 n := by
    rw [List.takeWhile_append_of_pos hdigits,
      List.takeWhile_cons_of_neg (Bool.eq_false_iff.mp hc), List.append_nil]
  have hdrop : (Nat.toDigits 10 n ++ c :: rest).dropWhile Char.isDigit = c :: rest := by
    rw [List.dropWhile_append_of_pos hdigits,
      List.dropWhile_cons_of_neg (Bool.eq_false_iff.mp hc)]
  have hne : Nat.toDigits 10 n ≠ [] := Nat.toDigits_ne_nil
  show (if (Nat.toDigits 10 n ++ c :: rest).takeWhile Char.isDigit = [] then none
    else some (Nat.ofDigitChars 10 ((Nat.toDigits 10 n ++ c :: rest).takeWhile Char.isDigit) 0,
      (Nat.toDigits 10 n ++ c :: rest).dropWhile Char.isDigit)) = _
  rw [htake, hdrop, if_neg hne, Nat.ofDigitChars_ten_toDigits]

theorem readField_toDigits (n : Nat) (rest : List Char) :
    readField (Nat.toDigits 10 n ++ '-' :: rest) = some (n, rest) := by
  rw [readField, readNat_toDigits n (by decide)]
  rfl

theorem toList_getHeapPrefix (process : Process) :
    (getHeapPrefix process).toList = "jsleakwatcher-".toList
      ++ (Nat.toDigits 10 process.pid ++ '-' :: (Nat.toDigits 10 process.tid ++ ['-'])) := by
  show ("jsleakwatcher-" ++ toString process.pid ++ "-" ++ toString process.tid ++ "-").toList = _
  simp only [String.toList_append, Nat.toString_eq_repr, Nat.toList_repr, List.append_assoc]
  rfl

/-- **The prefix of a name says whose it is**, whatever follows it. -/
theorem readPrefix_getHeapPrefix (process : Process) (rest : List Char) :
    readPrefix ((getHeapPrefix process).toList ++ rest) = some (process, rest) := by
  have hlist : (getHeapPrefix process).toList ++ rest = "jsleakwatcher-".toList
      ++ (Nat.toDigits 10 process.pid ++ '-' :: (Nat.toDigits 10 process.tid ++ '-' :: rest)) := by
    rw [toList_getHeapPrefix]
    simp only [List.append_assoc, List.cons_append, List.nil_append]
  have hpre : ∀ cs : List Char,
      "jsleakwatcher-".toList.isPrefixOf ("jsleakwatcher-".toList ++ cs) = true :=
    fun cs => List.isPrefixOf_iff_prefix.mpr (List.prefix_append _ cs)
  rw [hlist, readPrefix, if_pos (hpre _), List.drop_left, readField_toDigits]
  simp only
  rw [readField_toDigits]

/-- **Two parties' names never agree**: the prefixes end in the same place and are equal. -/
theorem getHeapPrefix_inj {p q : Process} {x y : String}
    (h : getHeapPrefix p ++ x = getHeapPrefix q ++ y) : p = q ∧ x = y := by
  have hlist := congrArg String.toList h
  rw [String.toList_append, String.toList_append] at hlist
  have hread := congrArg readPrefix hlist
  rw [readPrefix_getHeapPrefix, readPrefix_getHeapPrefix] at hread
  obtain ⟨rfl, hrest⟩ := Prod.mk.inj (Option.some.inj hread)
  exact ⟨rfl, String.toList_inj.mp hrest⟩

/-- Every suffix starts with the dot, where a numeral ends. -/
theorem toList_suffix {suffix : String} (hs : suffix ∈ dumpSuffixes) :
    ∃ rest, suffix.toList = '.' :: rest := by
  rcases List.mem_cons.mp hs with rfl | hs
  · exact ⟨_, rfl⟩
  · rcases List.mem_cons.mp hs with rfl | hs
    · exact ⟨_, rfl⟩
    · obtain rfl := List.mem_singleton.mp hs
      exact ⟨_, rfl⟩

/-- **The form is decided**: a name that a dump made is read back. -/
theorem isWatcherName_iff (name : String) : isWatcherName name = true ↔ WatcherName name := by
  constructor
  · intro h
    rw [isWatcherName] at h
    split at h
    · exact absurd h Bool.false_ne_true
    · split at h
      · exact absurd h Bool.false_ne_true
      · obtain ⟨hs, hname⟩ := Bool.and_eq_true_iff.mp h
        exact ⟨_, _, _, List.contains_iff_mem.mp hs, eq_of_beq hname⟩
  · rintro ⟨process, time, suffix, hs, rfl⟩
    obtain ⟨rest, hrest⟩ := toList_suffix hs
    have hlist : (fileName process time suffix).toList
        = (getHeapPrefix process).toList ++ (Nat.toDigits 10 time ++ suffix.toList) := by
      simp only [fileName, String.toList_append, Nat.toString_eq_repr, Nat.toList_repr,
        List.append_assoc]
    rw [isWatcherName, hlist, readPrefix_getHeapPrefix]
    simp only
    rw [hrest, readNat_toDigits time (by decide), ← hrest]
    simp only
    rw [String.ofList_toList]
    exact Bool.and_eq_true_iff.mpr ⟨List.contains_iff_mem.mpr hs, beq_self_eq_true _⟩

instance : DecidablePred WatcherName := fun name =>
  decidable_of_iff (isWatcherName name = true) (isWatcherName_iff name)

-- ── What stands before a suffix ───────────────────────────────────────────────────

/-- No suffix ends in another one. -/
theorem suffix_eq_of_suffix {s s' : String} (hs : s ∈ dumpSuffixes) (hs' : s' ∈ dumpSuffixes)
    (h : s.toList <:+ s'.toList) : s = s' := by
  have hall : ∀ s ∈ dumpSuffixes, ∀ s' ∈ dumpSuffixes, s.toList <:+ s'.toList → s = s' := by
    decide +kernel
  exact hall s hs s' hs' h

/-- **A suffix can only be cut off in one way.** -/
theorem append_suffix_inj {x y s s' : String} (hs : s ∈ dumpSuffixes) (hs' : s' ∈ dumpSuffixes)
    (h : x ++ s = y ++ s') : x = y ∧ s = s' := by
  have hlist : x.toList ++ s.toList = y.toList ++ s'.toList := by
    rw [← String.toList_append, ← String.toList_append, h]
  have hsame : s = s' := by
    rcases List.suffix_or_suffix_of_suffix (List.suffix_append x.toList s.toList)
        (hlist ▸ List.suffix_append y.toList s'.toList) with hsuf | hsuf
    · exact suffix_eq_of_suffix hs hs' hsuf
    · exact (suffix_eq_of_suffix hs' hs hsuf).symm
  rw [hsame] at hlist
  exact ⟨String.toList_inj.mp (List.append_cancel_right hlist), hsame⟩

/-- A name behind a party's prefix has the form when a numeral stands before the suffix. -/
theorem watcherName_prefix_iff (process : Process) (text : String) {suffix : String}
    (hs : suffix ∈ dumpSuffixes) :
    WatcherName (getHeapPrefix process ++ text ++ suffix) ↔ ∃ time : Nat, text = toString time := by
  constructor
  · rintro ⟨process', time, suffix', hs', hname⟩
    rw [fileName, String.append_assoc, String.append_assoc] at hname
    obtain ⟨-, hrest⟩ := getHeapPrefix_inj hname
    exact ⟨time, (append_suffix_inj hs hs' hrest).1⟩
  · rintro ⟨time, rfl⟩
    exact watcherName process time hs

theorem toString_injective {n m : Nat} (h : toString n = toString m) : n = m := by
  have hdigits := congrArg String.toList h
  simp only [Nat.toString_eq_repr, Nat.toList_repr] at hdigits
  have hparse := congrArg (fun ds => Nat.ofDigitChars 10 ds 0) hdigits
  simpa only [Nat.ofDigitChars_ten_toDigits] using hparse

/-- **A name determines its dump**, across all parties. -/
theorem fileName_inj {p q : Process} {time time' : Nat} {suffix suffix' : String}
    (hs : suffix ∈ dumpSuffixes) (hs' : suffix' ∈ dumpSuffixes)
    (h : fileName p time suffix = fileName q time' suffix') :
    p = q ∧ time = time' ∧ suffix = suffix' := by
  rw [fileName, fileName, String.append_assoc, String.append_assoc] at h
  obtain ⟨rfl, hrest⟩ := getHeapPrefix_inj h
  obtain ⟨htime, hsuffix⟩ := append_suffix_inj hs hs' hrest
  exact ⟨rfl, toString_injective htime, hsuffix⟩

-- ── How a parsed timestamp is printed ─────────────────────────────────────────────

/-- What `parseInt` makes of digits is a natural number, or beyond all doubles. -/
theorem roundNat_cases (n : Nat) :
    (∃ m, JsNum.roundNat n = JsNum.ofNat m) ∨ JsNum.roundNat n = .posInf := by
  have hround : ∀ (overflow : Prop) [Decidable overflow] (m : Nat),
      (∃ k, (if overflow then JsNum.posInf else .ofNat m) = JsNum.ofNat k)
        ∨ (if overflow then JsNum.posInf else .ofNat m) = .posInf := by
    intro overflow _ m
    by_cases h : overflow
    · exact Or.inr (if_pos h)
    · exact Or.inl ⟨m, if_neg h⟩
  by_cases hsafe : n < 2 ^ 53
  · exact Or.inl ⟨n, if_pos hsafe⟩
  · rw [JsNum.roundNat, if_neg hsafe]
    exact hround _ _

theorem getTimestampByFileName_cases (name : String) :
    (∃ m, getTimestampByFileName name = JsNum.ofNat m)
      ∨ getTimestampByFileName name = .posInf := by
  rw [getTimestampByFileName]
  split
  · exact Or.inl ⟨0, rfl⟩
  · exact roundNat_cases _

theorem toStr_ofNat (m : Nat) : (JsNum.ofNat m).toStr = JsNum.natToString m := by
  show JsNum.natToString ((m : Rat).num.toNat) = JsNum.natToString m
  rw [Rat.num_natCast, Int.toNat_natCast]

/-- A numeral has no letter in it. -/
theorem not_letter_of_toString {n : Nat} {text : String} (h : text = toString n) {c : Char}
    (hc : c.isDigit = false) : c ∉ text.toList := by
  rw [h, Nat.toString_eq_repr, Nat.toList_repr]
  intro hmem
  exact absurd (Nat.isDigit_of_mem_toDigits (by decide) (by decide) hmem)
    (Bool.eq_false_iff.mp hc)

/-- **Below 10²¹ a natural number is printed as a numeral**, from there on it is not. -/
theorem natToString_plain_iff (m : Nat) :
    (∃ n : Nat, JsNum.natToString m = toString n) ↔ m < 10 ^ 21 := by
  by_cases hsafe : m < 2 ^ 53
  · refine iff_of_true ⟨m, if_pos hsafe⟩ ?_
    omega
  · by_cases hm : m < 10 ^ 21
    · refine iff_of_true ⟨(JsNum.shortest m 17).1 * 10 ^ (JsNum.shortest m 17).2, ?_⟩ hm
      rw [JsNum.natToString, if_neg hsafe]
      exact if_pos hm
    · refine iff_of_false ?_ hm
      rintro ⟨n, hn⟩
      have hletter := not_letter_of_toString hn (c := 'e') (by decide)
      rw [JsNum.natToString, if_neg hsafe] at hletter
      simp only [if_neg hm, String.toList_append] at hletter
      refine hletter (List.mem_append_left _ (List.mem_append_right _ ?_))
      decide

/-- A timestamp that is printed in plain digits. -/
def Plain (x : JsNum) : Prop := x.lt (.ofNat (10 ^ 21)) = true

instance : DecidablePred Plain := fun x =>
  inferInstanceAs (Decidable (x.lt (.ofNat (10 ^ 21)) = true))

/-- **A parsed timestamp** goes back into a name as a numeral exactly below 10²¹. -/
theorem toStr_plain_iff (name : String) :
    (∃ n : Nat, (getTimestampByFileName name).toStr = toString n)
      ↔ Plain (getTimestampByFileName name) := by
  rcases getTimestampByFileName_cases name with ⟨m, hm⟩ | hinf
  · rw [hm, toStr_ofNat, natToString_plain_iff]
    show m < 10 ^ 21 ↔ decide ((m : Rat) < ((10 ^ 21 : Nat) : Rat)) = true
    rw [decide_eq_true_iff, Nat.cast_lt]
  · rw [hinf]
    refine iff_of_false ?_ Bool.false_ne_true
    rintro ⟨n, hn⟩
    have hletter := not_letter_of_toString hn (c := 'I') (by decide)
    exact hletter (by decide)

-- ── The timestamp of a base name ──────────────────────────────────────────────────

/-- A suffix has its only dot in front. -/
theorem dot_notMem_tail {suffix : String} (hs : suffix ∈ dumpSuffixes) :
    '.' ∉ suffix.toList.tail := by
  have hall : ∀ s ∈ dumpSuffixes, '.' ∉ s.toList.tail := by decide +kernel
  exact hall suffix hs

/-- A suffix that starts inside a base name ends there: the dot of the next one stops it. -/
theorem suffix_isPrefix_append {suffix next : String} (hs : suffix ∈ dumpSuffixes)
    (hn : next ∈ dumpSuffixes) {rest : List Char} (hrest : rest ≠ []) :
    suffix.toList <+: rest ++ next.toList ↔ suffix.toList <+: rest := by
  constructor
  · intro h
    rcases List.prefix_or_prefix_of_prefix h (List.prefix_append rest next.toList) with hpre | hpre
    · exact hpre
    · obtain ⟨t, ht⟩ := hpre
      rw [← ht, List.prefix_append_right_inj] at h
      cases t with
      | nil =>
          rw [List.append_nil] at ht
          rw [ht]
      | cons c t =>
          -- what is left of the suffix starts with the dot of `next`
          obtain ⟨tail, htail⟩ := toList_suffix hn
          rw [htail] at h
          obtain rfl := (List.cons_prefix_cons.mp h).1
          obtain ⟨d, rest, rfl⟩ := List.exists_cons_of_ne_nil hrest
          refine absurd ?_ (dot_notMem_tail hs)
          rw [← ht]
          exact List.mem_append_right rest List.mem_cons_self
  · intro h
    exact h.trans (List.prefix_append rest next.toList)

/-- Reading a timestamp: the digits at the front, when a suffix follows them. -/
theorem matchStamp_cons (c : Char) (cs : List Char) :
    matchStamp (c :: cs)
      = if c.isDigit = true ∧ (∃ suffix ∈ dumpSuffixes,
            suffix.toList <+: cs.dropWhile Char.isDigit) then
          some (c :: cs.takeWhile Char.isDigit)
        else matchStamp cs := by
  have htest : (c.isDigit && dumpSuffixes.any (fun suffix =>
      suffix.toList.isPrefixOf (cs.dropWhile Char.isDigit))) = true
      ↔ c.isDigit = true ∧ (∃ suffix ∈ dumpSuffixes,
          suffix.toList <+: cs.dropWhile Char.isDigit) := by
    rw [Bool.and_eq_true_iff, List.any_eq_true]
    simp only [List.isPrefixOf_iff_prefix]
  rw [matchStamp]
  simp only [htest]

/-- **The suffix does not change the timestamp**: both files of a dump have the same. -/
theorem matchStamp_append (base : List Char) {suffix suffix' : String}
    (hs : suffix ∈ dumpSuffixes) (hs' : suffix' ∈ dumpSuffixes) :
    matchStamp (base ++ suffix.toList) = matchStamp (base ++ suffix'.toList) := by
  induction base with
  | nil =>
      have hnone : ∀ s ∈ dumpSuffixes, matchStamp s.toList = none := by decide +kernel
      rw [List.nil_append, List.nil_append, hnone suffix hs, hnone suffix' hs']
  | cons c cs ih =>
      rw [List.cons_append, List.cons_append, matchStamp_cons, matchStamp_cons, ih]
      have hstop : ∀ {s : String}, s ∈ dumpSuffixes →
          s.toList.takeWhile Char.isDigit = [] ∧ s.toList.dropWhile Char.isDigit = s.toList := by
        intro s hmem
        obtain ⟨rest, hrest⟩ := toList_suffix hmem
        rw [hrest]
        exact ⟨rfl, rfl⟩
      by_cases hall : ∀ d ∈ cs, d.isDigit = true
      · -- the digits run up to the suffix
        have hsome : ∀ {s : String}, s ∈ dumpSuffixes → ∃ t ∈ dumpSuffixes,
            t.toList <+: (cs ++ s.toList).dropWhile Char.isDigit := by
          intro s hmem
          rw [List.dropWhile_append_of_pos hall, (hstop hmem).2]
          exact ⟨s, hmem, List.prefix_refl _⟩
        have hdigits : ∀ {s : String}, s ∈ dumpSuffixes →
            (cs ++ s.toList).takeWhile Char.isDigit = cs := by
          intro s hmem
          rw [List.takeWhile_append_of_pos hall, (hstop hmem).1, List.append_nil]
        rw [hdigits hs, hdigits hs']
        simp only [hsome hs, hsome hs', and_true]
      · -- they stop before it
        have hne : cs.dropWhile Char.isDigit ≠ [] := fun h =>
          hall (List.dropWhile_eq_nil_iff.mp h)
        have hdrop : ∀ s : String, (cs ++ s.toList).dropWhile Char.isDigit
            = cs.dropWhile Char.isDigit ++ s.toList := by
          intro s
          rw [List.dropWhile_append, if_neg (fun h => hne (List.isEmpty_iff.mp h))]
        have htake : ∀ s : String, (cs ++ s.toList).takeWhile Char.isDigit
            = cs.takeWhile Char.isDigit := by
          intro s
          rw [List.takeWhile_append, if_neg]
          intro hlen
          have hsplit := congrArg List.length
            (List.takeWhile_append_dropWhile (p := Char.isDigit) (l := cs))
          rw [List.length_append, hlen] at hsplit
          exact hne (List.length_eq_zero_iff.mp (by omega))
        have hsome : ∀ {s : String}, s ∈ dumpSuffixes →
            ((∃ t ∈ dumpSuffixes, t.toList <+: (cs ++ s.toList).dropWhile Char.isDigit)
              ↔ ∃ t ∈ dumpSuffixes, t.toList <+: cs.dropWhile Char.isDigit) := by
          intro s hmem
          rw [hdrop s]
          exact exists_congr (fun t =>
            and_congr_right (fun ht => suffix_isPrefix_append ht hmem hne))
        rw [htake suffix, htake suffix']
        simp only [hsome hs, hsome hs']

theorem getTimestampByFileName_append (base : String) {suffix suffix' : String}
    (hs : suffix ∈ dumpSuffixes) (hs' : suffix' ∈ dumpSuffixes) :
    getTimestampByFileName (base ++ suffix) = getTimestampByFileName (base ++ suffix') := by
  rw [getTimestampByFileName, getTimestampByFileName, String.toList_append,
    String.toList_append, matchStamp_append base.toList hs hs']

end DumpNames
