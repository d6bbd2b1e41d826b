import CryptoRadar.Alerts.Store
import CryptoRadar.Lib.CalendarText

/-!
# The keys a file of alerts records

The keys that a file records are those of its lines (`parseHandled_eq_ok`), so a file that is written
on records what it recorded before (`parseHandled_append`). A line records the key it was written for
(`keyOf_lineText`): a rule and a day are plain text, and no other text is written like a plain one.
-/

set_option autoImplicit false

namespace CryptoRadar.Alerts

open Checked JsonText Trend Date

section Lines

variable {F : Type} {floats : FloatText F} {limits : JsonLimits}

/-! ## The text of a line -/

def member (key : String) (value : PyStr) : PyStr :=
  writeString true (pyStr key) ++ pyStr ":" ++ writeString true value

def lineParts (rule day status ts : PyStr) : PyStr :=
  123 :: (member "day" day ++ (pyStr "," ++ (member "rule" rule ++ (pyStr "," ++
    (member "status" status ++ (pyStr "," ++ (member "ts" ts ++ [125])))))))

/-- A record of strings can always be written. -/
theorem dumps_lineRecord (rule day status ts : PyStr) :
    dumps floats limits lineStyle (lineRecord rule day status ts) =
      some (lineParts rule day status ts) := by
  refine writeDepth_mono (Nat.le_trans (by decide : 1 ≤ 8) limits.writeRoom) ?_
  have sorted : ordered true [(pyStr "day", Json.str day), (pyStr "rule", .str rule),
      (pyStr "status", .str status), (pyStr "ts", .str ts)] =
      ([(pyStr "day", .str day), (pyStr "rule", .str rule), (pyStr "status", .str status),
        (pyStr "ts", .str ts)] : List (PyStr × Json F)) := by
    unfold ordered
    refine List.Pairwise.insertionSort_eq ?_
    simp [byKey]
    decide
  unfold lineRecord
  simp only [writeDepth, writeWith, lineStyle, sorted, List.mapM_cons, List.mapM_nil,
    Option.bind_eq_bind, Option.bind_some, Option.pure_def]
  simp only [joined, lineParts, member, List.append_assoc, List.cons_append]

theorem lineText_eq (rule day status ts : PyStr) :
    lineText floats limits rule day status ts = asciiBytes (lineParts rule day status ts) := by
  unfold lineText
  rw [dumps_lineRecord]
  rfl

theorem member_append_inj {key : String} {value other rest otherRest : PyStr}
    (same : member key value ++ rest = member key other ++ otherRest) :
    writeString true value = writeString true other ∧ rest = otherRest := by
  unfold member at same
  rw [List.append_assoc, List.append_assoc (writeString true (pyStr key) ++ pyStr ":")] at same
  exact writeString_append_inj (List.append_cancel_left same)

/-- Equal lines have equally written rules and days. -/
theorem lineParts_inj {rule day status ts otherRule otherDay otherStatus otherTs : PyStr}
    (same : lineParts rule day status ts = lineParts otherRule otherDay otherStatus otherTs) :
    writeString true rule = writeString true otherRule ∧
      writeString true day = writeString true otherDay := by
  obtain ⟨sameDay, rest⟩ := member_append_inj (List.cons.inj same).2
  obtain ⟨sameRule, _⟩ := member_append_inj (List.append_cancel_left rest)
  exact ⟨sameRule, sameDay⟩

theorem lineParts_printable (rule day status ts : PyStr) :
    ∀ code ∈ lineParts rule day status ts, 32 ≤ code ∧ code < 127 := by
  have written : ∀ text, ∀ code ∈ writeString true text, 32 ≤ code ∧ code < 127 := by
    intro text code inText
    obtain ⟨visible, ascii⟩ := writeString_printable true text code inText
    exact ⟨visible, ascii rfl⟩
  have separator : ∀ code ∈ pyStr "," ++ pyStr ":", 32 ≤ code ∧ code < 127 := by decide
  have ofMember : ∀ key value, ∀ code ∈ member key value, 32 ≤ code ∧ code < 127 := by
    intro key value code inMember
    rcases List.mem_append.mp inMember with inKey | inValue
    · rcases List.mem_append.mp inKey with inName | inColon
      · exact written _ code inName
      · exact separator code (List.mem_append_right _ inColon)
    · exact written _ code inValue
  have comma : ∀ code ∈ pyStr ",", 32 ≤ code ∧ code < 127 := fun code isComma =>
    separator code (List.mem_append_left _ isComma)
  intro code inLine
  simp only [lineParts, List.mem_cons, List.mem_append, List.not_mem_nil, or_false] at inLine
  rcases inLine with rfl | inDay | isComma | inRule | isComma | inStatus | isComma | inTs | rfl
  · decide
  · exact ofMember _ _ code inDay
  · exact comma code isComma
  · exact ofMember _ _ code inRule
  · exact comma code isComma
  · exact ofMember _ _ code inStatus
  · exact comma code isComma
  · exact ofMember _ _ code inTs
  · decide

theorem newline_notMem_lineText (rule day status ts : PyStr) :
    10 ∉ lineText floats limits rule day status ts := by
  rw [lineText_eq]
  intro newline
  have visible := (mem_asciiBytes (lineParts_printable rule day status ts) 10 newline).1
  exact absurd visible (by decide)

/-! ## The key of a line -/

theorem escapeChar_of_visible {code : ℕ} (visible : 35 ≤ code ∧ code < 127) (noBackslash : code ≠ 92) :
    escapeChar true code = [code] := by
  unfold escapeChar
  simp only [Bool.true_and, decide_eq_true_eq]
  grind

/-- A rule is written as it is. -/
theorem plain_rule {rule : PyStr} (known : rule ∈ ruleValues) :
    ∀ code ∈ rule, escapeChar true code = [code] := by
  have all : ∀ rule ∈ ruleValues, ∀ code ∈ rule, (35 ≤ code ∧ code < 127) ∧ code ≠ 92 := by
    decide
  intro code inRule
  obtain ⟨visible, noBackslash⟩ := all rule known code inRule
  exact escapeChar_of_visible visible noBackslash

/-- A day is written as it is. -/
theorem plain_day (date : Date) : ∀ code ∈ pyStr date.isoformat, escapeChar true code = [code] := by
  intro code inDay
  have digitOrDash : (48 ≤ code ∧ code ≤ 57) ∨ code = 45 := by
    unfold Date.isoformat at inDay
    simp only [pyStr_append, List.mem_append] at inDay
    rcases inDay with (((inYear | isDash) | inMonth) | isDash) | inDay
    · exact .inl (digits_padded _ _ code inYear)
    · exact .inr (by simpa [pyStr] using isDash)
    · exact .inl (digits_padded _ _ code inMonth)
    · exact .inr (by simpa [pyStr] using isDash)
    · exact .inl (digits_padded _ _ code inDay)
  exact escapeChar_of_visible (by omega) (by omega)

theorem ruleOf_eq_ok {record : Record F} {rule : PyStr} (found : ruleOf record = .ok rule) :
    rule ∈ ruleValues := by
  unfold ruleOf at found
  split at found
  next => cases found
  next => cases found
  next =>
    obtain ⟨text, _, rest⟩ := bind_eq_ok.mp found
    obtain ⟨_, known, same⟩ := bind_eq_ok.mp rest
    cases same
    exact ensure_eq_ok.mp known

/-- What is known of the key of a line: its rule and its day are plain, and the line is theirs. -/
theorem keyOf_eq_ok {raw : Bytes} {key : Key} (read : keyOf floats limits raw = .ok key) :
    key.1 ∈ ruleValues ∧ (∃ date : Date, pyStr date.isoformat = key.2) ∧
      ∃ status ts, lineText floats limits key.1 key.2 status ts = raw := by
  obtain ⟨_, _, rest⟩ := bind_eq_ok.mp read
  obtain ⟨value, _, rest⟩ := bind_eq_ok.mp rest
  split at rest
  next record =>
    obtain ⟨_, _, rest⟩ := bind_eq_ok.mp rest
    obtain ⟨⟨rule, day, status, ts⟩, values, rest⟩ := bind_eq_ok.mp rest
    obtain ⟨date, _, rest⟩ := bind_eq_ok.mp rest
    obtain ⟨_, isDay, rest⟩ := bind_eq_ok.mp rest
    obtain ⟨_, isLine, same⟩ := bind_eq_ok.mp rest
    cases same
    refine ⟨?_, ⟨date, ensure_eq_ok.mp isDay⟩, status, ts, ?_⟩
    · obtain ⟨found, isRule, rest⟩ := bind_eq_ok.mp values
      obtain ⟨_, _, rest⟩ := bind_eq_ok.mp rest
      obtain ⟨_, _, rest⟩ := bind_eq_ok.mp rest
      obtain ⟨_, _, rest⟩ := bind_eq_ok.mp rest
      obtain ⟨_, _, same⟩ := bind_eq_ok.mp rest
      cases same
      exact ruleOf_eq_ok isRule
    · exact List.append_cancel_right (ensure_eq_ok.mp isLine)
  next => cases rest

/-- A line that is read records the key it was written for. -/
theorem keyOf_lineText {rule day status ts : PyStr} {key : Key}
    (read : keyOf floats limits (lineText floats limits rule day status ts) = .ok key) :
    key = (rule, day) := by
  obtain ⟨known, ⟨date, isDay⟩, otherStatus, otherTs, sameText⟩ := keyOf_eq_ok read
  rw [lineText_eq, lineText_eq] at sameText
  have ascii : ∀ rule day status ts, ∀ code ∈ lineParts rule day status ts, code < 256 := by
    intro rule day status ts code inLine
    have := (lineParts_printable rule day status ts code inLine).2
    omega
  have sameParts := congrArg asciiText sameText
  rw [asciiText_asciiBytes (ascii _ _ _ _), asciiText_asciiBytes (ascii _ _ _ _)] at sameParts
  obtain ⟨sameRule, sameDay⟩ := lineParts_inj sameParts
  have isRule := eq_of_writeString_eq (plain_rule known) sameRule
  have isDate : day = key.2 := by
    rw [← isDay] at sameDay ⊢
    exact eq_of_writeString_eq (plain_day date) sameDay
  rw [isRule, isDate]

/-! ## The keys of a file -/

theorem mapM_zipIdx_eq_ok {Item Value Failure Other : Type} {turn : Item → Except Failure Value}
    {place : ℕ → Failure → Other} {values : List Value} : ∀ {items : List Item} {start : ℕ},
    (items.zipIdx start).mapM (fun item => (turn item.1).mapError (place item.2)) = .ok values ↔
      List.Forall₂ (fun item value => turn item = .ok value) items values := by
  intro items
  induction items generalizing values with
  | nil =>
      intro start
      rw [List.zipIdx_nil, mapM_eq_ok, List.forall₂_nil_left_iff, List.forall₂_nil_left_iff]
  | cons item rest hyp =>
      intro start
      rw [List.zipIdx_cons, mapM_eq_ok, List.forall₂_cons_left_iff, List.forall₂_cons_left_iff]
      refine exists_congr fun value => exists_congr fun others => ?_
      rw [mapError_eq_ok, ← mapM_eq_ok, hyp]

theorem terminated_iff {data : Bytes} :
    (data = [] ∨ data.getLast? = some 10) ↔ Lines.Terminated 10 data := by
  unfold Lines.Terminated
  rw [List.getLast?_eq_some_iff]

/-- A file is read when it is terminated and each of its lines is, and records their keys. -/
theorem parseHandled_eq_ok {data : Bytes} {keys : List Key} :
    parseHandled floats limits data = .ok keys ↔ Lines.Terminated 10 data ∧
      List.Forall₂ (fun raw key => keyOf floats limits raw = .ok key) (Lines.linesOf 10 data) keys := by
  unfold parseHandled
  rw [bind_eq_ok, ← terminated_iff]
  constructor
  · rintro ⟨_, terminated, read⟩
    exact ⟨ensure_eq_ok.mp terminated, mapM_zipIdx_eq_ok.mp read⟩
  · rintro ⟨terminated, read⟩
    exact ⟨(), ensure_of terminated, mapM_zipIdx_eq_ok.mpr read⟩

/-- A file that is written on records what it recorded, and the keys of what is added. -/
theorem parseHandled_append {data more : Bytes} {keys all : List Key}
    (read : parseHandled floats limits data = .ok keys)
    (readAll : parseHandled floats limits (data ++ more) = .ok all) :
    ∃ added, all = keys ++ added ∧ List.Forall₂ (fun raw key => keyOf floats limits raw = .ok key)
      (Lines.linesOf 10 more) added := by
  obtain ⟨terminated, lines⟩ := parseHandled_eq_ok.mp read
  obtain ⟨_, allLines⟩ := parseHandled_eq_ok.mp readAll
  rw [Lines.linesOf_append terminated] at allLines
  clear terminated read readAll
  generalize Lines.linesOf 10 data = front at lines allLines
  induction lines generalizing all with
  | nil => exact ⟨all, rfl, allLines⟩
  | cons isKey rest hyp =>
      cases allLines with
      | cons isFirst later =>
          obtain ⟨added, rfl, isAdded⟩ := hyp later
          cases isKey.symm.trans isFirst
          exact ⟨added, rfl, isAdded⟩

/-- Files that are read one by one are read one after the other. -/
theorem parseHandled_append_ok {data more : Bytes} {keys added : List Key}
    (read : parseHandled floats limits data = .ok keys)
    (readMore : parseHandled floats limits more = .ok added) :
    parseHandled floats limits (data ++ more) = .ok (keys ++ added) := by
  obtain ⟨terminated, lines⟩ := parseHandled_eq_ok.mp read
  obtain ⟨moreTerminated, moreLines⟩ := parseHandled_eq_ok.mp readMore
  refine parseHandled_eq_ok.mpr ⟨?_, ?_⟩
  · rcases moreTerminated with rfl | ⟨front, rfl⟩
    · rw [List.append_nil]
      exact terminated
    · exact .inr ⟨data ++ front, (List.append_assoc _ _ _).symm⟩
  · rw [Lines.linesOf_append terminated]
    exact List.rel_append lines moreLines

/-- What is written for some entries records their keys. -/
theorem parseHandled_linesFor {entries : List (Key × PyStr)} {ts : PyStr} {keys : List Key}
    (read : parseHandled floats limits (linesFor floats limits entries ts) = .ok keys) :
    keys = entries.map Prod.fst := by
  have lines : Lines.linesOf 10 (linesFor floats limits entries ts) =
      entries.map fun entry => lineText floats limits entry.1.1 entry.1.2 entry.2 ts := by
    clear read
    induction entries with
    | nil => rfl
    | cons entry rest hyp =>
        have one : linesFor floats limits (entry :: rest) ts =
            line floats limits entry.1.1 entry.1.2 entry.2 ts ++ linesFor floats limits rest ts := rfl
        have terminated : Lines.Terminated 10
            (line floats limits entry.1.1 entry.1.2 entry.2 ts) := .inr ⟨_, rfl⟩
        rw [one, Lines.linesOf_append terminated, hyp]
        unfold line
        rw [Lines.linesOf_line (newline_notMem_lineText _ _ _ _)]
        rfl
  have recorded := (parseHandled_eq_ok.mp read).2
  rw [lines, List.forall₂_map_left_iff] at recorded
  have each : List.Forall₂ (fun (entry : Key × PyStr) key => key = entry.1) entries keys :=
    recorded.imp fun entry key isKey => keyOf_lineText isKey
  clear read lines recorded
  induction each with
  | nil => rfl
  | cons same rest hyp => rw [List.map_cons, same, hyp]

theorem unhandled_notMem {handled : List Key} {entries : List (Key × PyStr)} :
    ∀ key ∈ (unhandled handled entries).map Prod.fst, key ∉ handled := by
  induction entries generalizing handled with
  | nil => simp [unhandled]
  | cons entry rest hyp =>
      intro key member
      unfold unhandled at member
      split at member
      next => exact hyp key member
      next fresh =>
        rcases List.mem_cons.mp member with rfl | later
        · exact fresh
        · exact fun isHandled => hyp key later (List.mem_cons_of_mem _ isHandled)

theorem unhandled_nodup {handled : List Key} {entries : List (Key × PyStr)} :
    ((unhandled handled entries).map Prod.fst).Nodup := by
  induction entries generalizing handled with
  | nil => simp [unhandled]
  | cons entry rest hyp =>
      unfold unhandled
      split
      next => exact hyp
      next =>
        rw [List.map_cons, List.nodup_cons]
        exact ⟨fun again => unhandled_notMem _ again List.mem_cons_self, hyp⟩

end Lines

end CryptoRadar.Alerts
