/-
  NovaMP.Client.BrowserConsole — choosing a server
  (`ServerBrowser::runConsoleUI` in `client/src/ui/server_browser.cpp`).

  The browser reads two numbers from the standard input: a filter and the number of a
  row. Each is followed by an `ignore()`, which takes one byte, whatever it is. A filter
  that is no `int` sets the state of `cin`, so that no row is chosen then.

  - `ranked_visible`: the rows are the entries of the filter, those of NovaMP first, then
    the fuller ones, and else as they were fetched.
  - `selected_iff`: which texts choose which entry.
  - `read_back`: the number a row begins with, typed in, chooses its entry.
  - `ui_honest`: all of it.
-/

import NovaMP.Client.ServerBrowser
import NovaMP.Network.Input

namespace NovaMP.ServerBrowser

open Lib Lib.Istream

/-! ## Stable sorting -/

section

variable {α : Type} {le : α → α → Bool}

/-- Elements that may stand in either order keep theirs. -/
theorem filter_mergeSort (htrans : ∀ a b c, le a b → le b c → le a c) (htotal : ∀ a b, le a b || le b a)
    {p : α → Bool} (hp : ∀ a b, p a → p b → le a b) (l : List α) : (l.mergeSort le).filter p = l.filter p := by
  have hpair : (l.filter p).Pairwise fun a b => le a b = true := by
    refine List.pairwise_iff_forall_sublist.mpr fun {a b} hab => ?_
    have ha := List.of_mem_filter (hab.subset (List.mem_cons_self (l := [b])))
    have hb := List.of_mem_filter (hab.subset (List.mem_cons_of_mem a List.mem_cons_self))
    exact hp a b ha hb
  have hsub : (l.filter p).Sublist (l.mergeSort le) :=
    List.sublist_mergeSort htrans htotal hpair List.filter_sublist
  have hfilter := hsub.filter p
  rw [List.filter_filter] at hfilter
  simp only [Bool.and_self] at hfilter
  exact (hfilter.eq_of_length ((List.mergeSort_perm l le).filter p).length_eq.symm).symm

end

/-! ## The rows -/

/-- `filter` lets the entry through. -/
def passes (filter : Int) (s : ServerEntry) : Bool :=
  !(filter = 2 && s.network ≠ .novamp) && !(filter = 3 && s.network ≠ .beammp)

/-- The comparison of `std::stable_sort`. -/
def comesFirst (a b : ServerEntry) : Bool :=
  if a.network ≠ b.network then a.network = .novamp else b.currentPlayers < a.currentPlayers

def visible (filter : Int) (servers : List ServerEntry) : List ServerEntry :=
  (servers.filter (passes filter)).mergeSort fun a b => !comesFirst b a

/-- A field after `std::left` and `std::setw`. -/
def setw (width : Nat) (text : Bytes) : Bytes := text ++ List.replicate (width - text.length) 32

def intText (n : Int) : Bytes := utf8 (toString n)

def row (i : Nat) (s : ServerEntry) : Bytes :=
  let net := if s.network = .novamp then utf8 "NMP" else utf8 "BMP"
  let players := intText s.currentPlayers ++ utf8 "/" ++ intText s.maxPlayers
  let flags := (if s.passwordProtected then utf8 "[P]" else []) ++ (if s.modded then utf8 "[M]" else [])
  setw 4 (natText (i + 1)) ++ setw 6 net ++ setw 30 ((utf8 s.name).take 29) ++ setw 20 ((utf8 s.map).take 19) ++
    setw 9 players ++ setw 10 flags ++ utf8 "\n"

/-- The rows that are printed, the entry `on_select` gets, and what is left of `cin`. -/
structure Choice where
  rows : List Bytes
  selected : Option ServerEntry
  cin : Istream UInt8

def runConsoleUI (servers : List ServerEntry) (cin : Istream UInt8) : Choice :=
  if servers = [] then ⟨[], none, cin⟩
  else
    let (filter, cin) := number ascii toInt cin
    let cin := cin.ignore
    let shown := visible (filter.getD 1) servers
    if shown = [] then ⟨[], none, cin⟩
    else
      let rows := shown.mapIdx row
      let (choice, cin) := number ascii toInt cin
      let cin := cin.ignore
      let choice := choice.getD 0
      if choice < 1 ∨ (shown.length : Int) < choice then ⟨rows, none, cin⟩
      else ⟨rows, shown[choice.toNat - 1]?, cin⟩

/-! ## What is shown -/

/-- The rows are the entries the filter lets through, in order. -/
structure Ranked (filter : Int) (servers rows : List ServerEntry) : Prop where
  perm : rows.Perm (servers.filter (passes filter))
  ordered : rows.Pairwise fun a b => comesFirst b a = false
  /-- Entries of one list with as many players stand as they were fetched. -/
  stable : ∀ network players, (rows.filter fun s => s.network = network ∧ s.currentPlayers = players) =
    (servers.filter (passes filter)).filter fun s => s.network = network ∧ s.currentPlayers = players

theorem comesFirst_iff {a b : ServerEntry} : comesFirst a b = true ↔
    a.network = .novamp ∧ b.network = .beammp ∨ a.network = b.network ∧ b.currentPlayers < a.currentPlayers := by
  unfold comesFirst
  cases ha : a.network <;> cases hb : b.network <;> simp

theorem le_trans_first (a b c : ServerEntry) (hab : (!comesFirst b a) = true) (hbc : (!comesFirst c b) = true) :
    (!comesFirst c a) = true := by
  rw [Bool.not_eq_true', ← Bool.not_eq_true, comesFirst_iff] at hab hbc ⊢
  cases ha : a.network <;> cases hb : b.network <;> cases hc : c.network <;> simp [ha, hb, hc] at hab hbc ⊢ <;> omega

theorem le_total_first (a b : ServerEntry) : (!comesFirst b a || !comesFirst a b) = true := by
  rw [Bool.or_eq_true, Bool.not_eq_true', Bool.not_eq_true', ← Bool.not_eq_true, ← Bool.not_eq_true, comesFirst_iff,
    comesFirst_iff]
  cases ha : a.network <;> cases hb : b.network <;> simp <;> omega

theorem ranked_visible (filter : Int) (servers : List ServerEntry) : Ranked filter servers (visible filter servers) where
  perm := List.mergeSort_perm _ _
  ordered := by
    refine (List.pairwise_mergeSort le_trans_first le_total_first _).imp fun h => ?_
    simpa using h
  stable network players := by
    refine filter_mergeSort le_trans_first le_total_first (fun a b ha hb => ?_) _
    simp only [decide_eq_true_eq] at ha hb
    rw [Bool.not_eq_true', ← Bool.not_eq_true, comesFirst_iff]
    rintro (⟨hn, hb'⟩ | ⟨-, hlt⟩)
    · rw [hb.1, ← ha.1, hb'] at hn
      cases hn
    · rw [ha.2, hb.2] at hlt
      exact lt_irrefl _ hlt

/-! ## What is chosen -/

/-- The text has two numerals with one byte between them: an `int`, and what is read as `choice`. -/
structure Typed (text : Bytes) (filter choice : Int) (rest : Bytes) : Prop where
  filter : ∃ negative digits between, Numeral ascii text negative digits between ∧
    toInt negative (decimal digits) = (filter, false) ∧
    ∃ negative' digits', Numeral ascii between.tail negative' digits' rest ∧
      (toInt negative' (decimal digits')).1 = choice

/-- The list as a reader of the row's number sees it. -/
def Numbered (rows : List ServerEntry) (choice : Int) (e : ServerEntry) : Prop :=
  1 ≤ choice ∧ rows[choice.toNat - 1]? = some e

theorem Numbered.le {rows : List ServerEntry} {choice : Int} {e : ServerEntry} (h : Numbered rows choice e) :
    ¬ (choice < 1 ∨ (rows.length : Int) < choice) := by
  obtain ⟨hlt, -⟩ := List.getElem?_eq_some_iff.mp h.2
  have h1 := h.1
  omega

theorem not_numbered_zero {rows : List ServerEntry} {e : ServerEntry} : ¬ Numbered rows 0 e := fun h => absurd h.1 (by decide)

variable {servers : List ServerEntry} {text : Bytes}

/-- What `runConsoleUI` does once the filter is read. -/
def choose (shown : List ServerEntry) (cin : Istream UInt8) : Choice :=
  if shown = [] then ⟨[], none, cin⟩
  else
    let choice := (number ascii toInt cin).1.getD 0
    let cin := (number ascii toInt cin).2.ignore
    if choice < 1 ∨ (shown.length : Int) < choice then ⟨shown.mapIdx row, none, cin⟩
    else ⟨shown.mapIdx row, shown[choice.toNat - 1]?, cin⟩

theorem runConsoleUI_eq (h : servers ≠ []) (cin : Istream UInt8) : runConsoleUI servers cin =
    choose (visible ((number ascii toInt cin).1.getD 1) servers) (number ascii toInt cin).2.ignore := by
  rw [runConsoleUI, if_neg h]
  rfl

theorem choose_selected_iff {shown : List ServerEntry} {cin : Istream UInt8} {e : ServerEntry} :
    (choose shown cin).selected = some e ↔ Numbered shown ((number ascii toInt cin).1.getD 0) e := by
  unfold choose
  by_cases hnil : shown = []
  · rw [if_pos hnil, hnil]
    exact iff_of_false nofun fun h => by simp [Numbered] at h
  rw [if_neg hnil]
  dsimp only
  by_cases hc : (number ascii toInt cin).1.getD 0 < 1 ∨ (shown.length : Int) < (number ascii toInt cin).1.getD 0
  · rw [if_pos hc]
    exact iff_of_false nofun fun h => h.le hc
  · rw [if_neg hc]
    have h1 : 1 ≤ (number ascii toInt cin).1.getD 0 := by omega
    exact ⟨fun h => ⟨h1, h⟩, fun h => h.2⟩

/-- A stream that has failed chooses nothing. -/
theorem choose_failed {cin : Istream UInt8} (h : cin.good = false) (shown : List ServerEntry) :
    (choose shown cin).selected = none := by
  refine Option.eq_none_iff_forall_ne_some.mpr fun e he => ?_
  rw [choose_selected_iff, number_failed h] at he
  exact not_numbered_zero he

theorem ignore_failed {cin : Istream UInt8} (h : cin.good = false) : cin.ignore.good = false := by
  rw [ignore, if_neg (by simp [h])]
  exact good_of_fail rfl

/-- A number that is read from good text is a numeral; anything else is `0`, or nothing. -/
theorem number_pos {e : ServerEntry} {shown : List ServerEntry}
    (h : Numbered shown ((number ascii toInt (ofText text)).1.getD 0) e) :
    ∃ negative digits rest, Numeral ascii text negative digits rest := by
  rcases blank_or_text ascii text with hblank | ⟨space, b, more, htext, hspace, hb⟩
  · rw [number_blank hblank] at h
    exact (not_numbered_zero h).elim
  · by_contra hnone
    have hzero := (number_malformed toInt htext hspace hb fun negative digits rest hn =>
      hnone ⟨negative, digits, rest, hn⟩).1
    rw [hzero] at h
    exact not_numbered_zero h

/-- If the filter leaves the stream good, it is a numeral with something behind it. -/
theorem good_filter (h : (number ascii toInt (ofText text)).2.good = true) :
    ∃ negative digits b rest filter, Numeral ascii text negative digits (b :: rest) ∧
      toInt negative (decimal digits) = (filter, false) := by
  rcases blank_or_text ascii text with hblank | ⟨space, b, more, htext, hspace, hb⟩
  · rw [number_blank hblank] at h
    cases h
  by_cases hnumeral : ∃ negative digits rest, Numeral ascii text negative digits rest
  · obtain ⟨negative, digits, between, hn⟩ := hnumeral
    rw [number_numeral _ ascii_lawful hn, good] at h
    simp only [Bool.not_or, Bool.and_eq_true, Bool.not_eq_true'] at h
    cases between with
    | nil => exact absurd h.1 (by decide)
    | cons c rest => exact ⟨negative, digits, c, rest, (toInt negative (decimal digits)).1, hn, Prod.ext rfl h.2⟩
  · have hfail := (number_malformed toInt htext hspace hb fun negative digits rest hn =>
      hnumeral ⟨negative, digits, rest, hn⟩).2
    rw [good_of_fail hfail] at h
    cases h

/-- The stream behind a filter, without the byte that `ignore` takes. -/
theorem after_filter {negative : Bool} {digits rest : Bytes} {b : UInt8} {filter : Int}
    (hn : Numeral ascii text negative digits (b :: rest)) (hfilter : toInt negative (decimal digits) = (filter, false)) :
    (number ascii toInt (ofText text)).1 = some filter ∧ (number ascii toInt (ofText text)).2.ignore = ofText rest := by
  rw [number_numeral _ ascii_lawful hn]
  dsimp only [ascii]
  rw [hfilter]
  exact ⟨rfl, rfl⟩

theorem selected_iff (hs : servers ≠ []) {e : ServerEntry} : (runConsoleUI servers (ofText text)).selected = some e ↔
    ∃ filter choice rest, Typed text filter choice rest ∧ Numbered (visible filter servers) choice e := by
  rw [runConsoleUI_eq hs]
  constructor
  · intro hsel
    have hgood : (number ascii toInt (ofText text)).2.good = true := by
      by_contra hbad
      rw [choose_failed (ignore_failed (by simpa using hbad))] at hsel
      cases hsel
    obtain ⟨negative, digits, b, between, filter, hn, hfilter⟩ := good_filter hgood
    obtain ⟨hread, hleft⟩ := after_filter hn hfilter
    rw [hread, hleft, Option.getD_some, choose_selected_iff] at hsel
    obtain ⟨negative', digits', rest, hn'⟩ := number_pos hsel
    rw [number_numeral _ ascii_lawful hn'] at hsel
    exact ⟨filter, _, rest, ⟨negative, digits, b :: between, hn, hfilter, negative', digits', hn', rfl⟩, hsel⟩
  · rintro ⟨filter, choice, rest, ⟨negative, digits, between, hn, hfilter, negative', digits', hn', rfl⟩, hnum⟩
    cases between with
    | nil => exact absurd (fun b hb => by cases hb) (hn'.not_blank ascii_lawful)
    | cons b between =>
      obtain ⟨hread, hleft⟩ := after_filter hn hfilter
      rw [List.tail_cons] at hn'
      rw [hread, hleft, Option.getD_some, choose_selected_iff, number_numeral _ ascii_lawful hn']
      exact hnum

/-! ## Reading a row back -/

/-- A row goes on with white space or the name of the network. -/
theorem row_eq (i : Nat) (e : ServerEntry) : ∃ rest, DigitsEnd rest ∧ row i e = natText (i + 1) ++ rest := by
  have hnet : ∃ b more, isDigit b = false ∧ (if e.network = .novamp then utf8 "NMP" else utf8 "BMP") = b :: more := by
    by_cases hn : e.network = .novamp
    · rw [if_pos hn]
      exact ⟨78, utf8 "MP", rfl, by decide⟩
    · rw [if_neg hn]
      exact ⟨66, utf8 "MP", rfl, by decide⟩
  obtain ⟨b, more, hb, hnet⟩ := hnet
  unfold row
  dsimp only
  rw [hnet, setw, setw]
  simp only [List.append_assoc, List.cons_append]
  refine ⟨_, ?_, rfl⟩
  intro c hc
  cases hk : 4 - (natText (i + 1)).length with
  | zero =>
    rw [hk, List.replicate_zero, List.nil_append] at hc
    rw [← Option.some.inj hc]
    exact hb
  | succ k =>
    rw [hk, List.replicate_succ, List.cons_append] at hc
    rw [← Option.some.inj hc]
    rfl

/-- The number a row begins with. -/
theorem row_digits (i : Nat) (e : ServerEntry) : leadingDigits (row i e) = natText (i + 1) := by
  obtain ⟨rest, hrest, hrow⟩ := row_eq i e
  rw [hrow]
  exact leadingDigits_append (fun _ => isDigit_of_mem_natText) hrest

theorem digitsEnd_newline (more : Bytes) : DigitsEnd (10 :: more) := fun b hb => by
  rw [← Option.some.inj hb]
  rfl

/-- A filter and the number of a row, each on a line of its own. -/
theorem read_back {filter i : Nat} (hf : filter < 2 ^ 31) {e : ServerEntry}
    (he : (visible filter servers)[i]? = some e) (hi : i + 1 < 2 ^ 31) (more : Bytes) :
    runConsoleUI servers (ofText (natText filter ++ 10 :: (leadingDigits (row i e) ++ 10 :: more))) =
      ⟨(visible filter servers).mapIdx row, some e, ofText more⟩ := by
  have hs : servers ≠ [] := by
    rintro rfl
    rw [visible, List.filter_nil, List.mergeSort_nil, List.getElem?_nil] at he
    cases he
  have hlen : i < (visible filter servers).length := (List.getElem?_eq_some_iff.mp he).1
  have hshown : visible filter servers ≠ [] := by
    rintro hnil
    rw [hnil, List.getElem?_nil] at he
    cases he
  obtain ⟨hread, hleft⟩ := after_filter
    (numeral_natText [] (fun b hb => by cases hb) (digitsEnd_newline (leadingDigits (row i e) ++ 10 :: more)) filter)
    (by rw [decimal_natText]; exact toInt_natCast hf)
  rw [List.nil_append] at hread hleft
  have hchoice := number_numeral toInt ascii_lawful
    (numeral_natText [] (fun b hb => by cases hb) (digitsEnd_newline more) (i + 1))
  dsimp only [ascii] at hchoice
  rw [List.nil_append, decimal_natText, toInt_natCast hi] at hchoice
  rw [runConsoleUI_eq hs, hread, hleft, Option.getD_some, row_digits, choose, if_neg hshown]
  dsimp only [ascii]
  rw [hchoice]
  dsimp only [Option.getD_some]
  rw [if_neg (by omega), Int.toNat_natCast, Nat.add_sub_cancel, he]
  rfl

/-- The user interface is what it looks like. -/
structure Honest (servers : List ServerEntry) : Prop where
  /-- What is printed are the rows of the filter that is read, `1` if there is none. -/
  rows : ∀ cin, (runConsoleUI servers cin).rows =
    (visible ((number ascii toInt cin).1.getD 1) servers).mapIdx row
  ranked : ∀ filter, Ranked filter servers (visible filter servers)
  selected : ∀ text e, (runConsoleUI servers (ofText text)).selected = some e ↔
    ∃ filter choice rest, Typed text filter choice rest ∧ Numbered (visible filter servers) choice e
  readBack : ∀ (filter i : Nat) e more, filter < 2 ^ 31 → i + 1 < 2 ^ 31 → (visible filter servers)[i]? = some e →
    runConsoleUI servers (ofText (natText filter ++ 10 :: (leadingDigits (row i e) ++ 10 :: more))) =
      ⟨(visible filter servers).mapIdx row, some e, ofText more⟩

theorem choose_rows (shown : List ServerEntry) (cin : Istream UInt8) : (choose shown cin).rows = shown.mapIdx row := by
  unfold choose
  by_cases hnil : shown = []
  · rw [if_pos hnil, hnil]
    rfl
  · rw [if_neg hnil]
    dsimp only
    split <;> rfl

theorem ui_honest (servers : List ServerEntry) : Honest servers where
  rows cin := by
    by_cases hs : servers = []
    · simp [runConsoleUI, hs, visible]
    · rw [runConsoleUI_eq hs, choose_rows]
  ranked filter := ranked_visible filter servers
  selected text e := by
    by_cases hs : servers = []
    · rw [runConsoleUI, if_pos hs, hs]
      refine iff_of_false nofun ?_
      rintro ⟨filter, choice, rest, -, hnum⟩
      simp [Numbered, visible] at hnum
    · exact selected_iff hs
  readBack filter i e more hf hi he := read_back hf he hi more

/-- The number of a row with a blank behind it: `ignore` takes the blank, and the line end is left to the next read. -/
example : (number ascii toInt (ofText (utf8 "2 
"))).2.ignore = ofText (utf8 "
") := by decide

end NovaMP.ServerBrowser
