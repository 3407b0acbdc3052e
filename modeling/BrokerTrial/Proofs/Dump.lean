import BrokerTrial.Session.Event
import Mathlib.Tactic

/-! A hex dump is lossless and safe to print. Digits read back as the number they were written for
(`readNumber_hexNumber`), the hex field of a line as the bytes of its row, and a dump as the bytes
that were dumped (`readDump_lines`). Whatever the bytes, all that is written is printable ASCII. -/

namespace BrokerTrial.HexDump

/-! ### Digits -/

def digit? (c : Char) : Option Nat :=
  if 48 ≤ c.toNat ∧ c.toNat ≤ 57 then some (c.toNat - 48)
  else if 65 ≤ c.toNat ∧ c.toNat ≤ 70 then some (c.toNat - 55)
  else none

def readNumber (cs : List Char) : Option Nat :=
  cs.foldlM (fun n c => (digit? c).map (16 * n + ·)) 0

def digits (n : Nat) : List Char := (Nat.toDigits 16 n).map Char.toUpper

theorem digit?_digitChar : ∀ d < 16, digit? (Nat.digitChar d).toUpper = some d := by
  decide

theorem digits_of_lt {n : Nat} (h : n < 16) : digits n = [(Nat.digitChar n).toUpper] := by
  rw [digits, Nat.toDigits_of_lt_base h]
  rfl

theorem digits_of_le {n : Nat} (h : 16 ≤ n) :
    digits n = digits (n / 16) ++ [(Nat.digitChar (n % 16)).toUpper] := by
  rw [digits, Nat.toDigits_of_base_le (by decide) h, List.map_append]
  rfl

theorem hexNumber_eq (width n : Nat) :
    hexNumber width n = List.replicate (width - (digits n).length) '0' ++ digits n := rfl

theorem readNumber_concat {cs : List Char} {c : Char} {n d : Nat} (hn : readNumber cs = some n)
    (hd : digit? c = some d) : readNumber (cs ++ [c]) = some (16 * n + d) := by
  rw [readNumber, List.foldlM_append]
  show (readNumber cs >>= _) = _
  rw [hn]
  simp [hd]

theorem readNumber_digits (n : Nat) : readNumber (digits n) = some n := by
  induction n using Nat.strong_induction_on with
  | _ n ih =>
    by_cases hn : n < 16
    · rw [digits_of_lt hn]
      have hnone : readNumber [] = some 0 := rfl
      have hd := readNumber_concat hnone (digit?_digitChar n hn)
      rwa [Nat.mul_zero, Nat.zero_add] at hd
    · rw [digits_of_le (by omega),
        readNumber_concat (ih (n / 16) (by omega)) (digit?_digitChar (n % 16) (by omega))]
      congr 1
      omega

theorem readNumber_zeros (k : Nat) (cs : List Char) :
    readNumber (List.replicate k '0' ++ cs) = readNumber cs := by
  induction k with
  | zero => rfl
  | succ k ih =>
    rw [← ih]
    rfl

/-- The digits of a number read back as the number, however wide they are padded. -/
theorem readNumber_hexNumber (width n : Nat) : readNumber (hexNumber width n) = some n := by
  rw [hexNumber_eq, readNumber_zeros, readNumber_digits]

theorem length_hexNumber (width n : Nat) :
    (hexNumber width n).length = max width (digits n).length := by
  rw [hexNumber_eq, List.length_append, List.length_replicate]
  omega

theorem pow_le_of_lt_length {width n : Nat} (h : width < (hexNumber width n).length)
    (hwidth : 0 < width) : 16 ^ ((hexNumber width n).length - 1) ≤ n := by
  rw [length_hexNumber] at h ⊢
  have hlen : max width (digits n).length = (Nat.toDigits 16 n).length := by
    rw [digits, List.length_map] at h ⊢
    omega
  rw [hlen] at h ⊢
  by_contra hlt
  have := (Nat.length_toDigits_le_iff (by decide) (by omega)).2 (not_le.1 hlt)
  omega

theorem digit?_isSome_of_mem {n : Nat} {c : Char} (h : c ∈ digits n) : (digit? c).isSome := by
  induction n using Nat.strong_induction_on with
  | _ n ih =>
    by_cases hn : n < 16
    · rw [digits_of_lt hn, List.mem_singleton] at h
      rw [h, digit?_digitChar n hn]
      rfl
    · rw [digits_of_le (by omega)] at h
      rcases List.mem_append.1 h with hfront | hlast
      · exact ih (n / 16) (by omega) hfront
      · rw [List.mem_singleton.1 hlast, digit?_digitChar (n % 16) (by omega)]
        rfl

theorem digit?_isSome_of_mem_hexNumber {width n : Nat} {c : Char} (h : c ∈ hexNumber width n) :
    (digit? c).isSome := by
  rw [hexNumber_eq] at h
  rcases List.mem_append.1 h with hpad | hdigit
  · rw [List.eq_of_mem_replicate hpad]
    rfl
  · exact digit?_isSome_of_mem hdigit

/-! ### The hex field -/

/-- The bytes of hex groups of two digits, whatever blanks stand between them. -/
def readGroups : List Char → Option (List UInt8)
  | [] => some []
  | ' ' :: rest => readGroups rest
  | [_] => none
  | a :: b :: rest => do
    let high ← digit? a
    let low ← digit? b
    return .ofNat (16 * high + low) :: (← readGroups rest)

theorem hexByte_eq (b : UInt8) : hexByte b =
    [(Nat.digitChar (b.toNat / 16)).toUpper, (Nat.digitChar (b.toNat % 16)).toUpper] := by
  have hb := b.toNat_lt
  by_cases hlow : b.toNat < 16
  · rw [hexByte, hexNumber_eq, digits_of_lt hlow, Nat.div_eq_of_lt hlow, Nat.mod_eq_of_lt hlow]
    rfl
  · rw [hexByte, hexNumber_eq, digits_of_le (by omega), digits_of_lt (by omega)]
    rfl

theorem readGroups_hexByte (b : UInt8) (rest : List Char) :
    readGroups (hexByte b ++ rest) = (readGroups rest).map (b :: ·) := by
  have hb := b.toNat_lt
  have hhigh := digit?_digitChar (b.toNat / 16) (by omega)
  have hlow := digit?_digitChar (b.toNat % 16) (by omega)
  have hblank : (Nat.digitChar (b.toNat / 16)).toUpper ≠ ' ' := by
    intro h
    rw [h] at hhigh
    cases hhigh
  have hbyte : 16 * (b.toNat / 16) + b.toNat % 16 = b.toNat := by omega
  rw [hexByte_eq]
  simp only [List.cons_append, List.nil_append]
  rw [readGroups]
  · rw [hhigh, hlow]
    simp only [Option.bind_eq_bind, Option.bind_some, hbyte, UInt8.ofNat_toNat]
    cases readGroups rest <;> rfl
  · exact hblank

theorem readGroups_blank (rest : List Char) : readGroups (' ' :: rest) = readGroups rest := by
  cases rest <;> rfl

theorem readGroups_blanks (k : Nat) : readGroups (List.replicate k ' ') = some [] := by
  induction k with
  | zero => rfl
  | succ k ih => rw [List.replicate_succ, readGroups_blank, ih]

/-- Groups one blank apart read back as the bytes, with any number of blanks behind them. -/
theorem readGroups_intercalate (row : List UInt8) (k : Nat) :
    readGroups (List.intercalate [' '] (row.map hexByte) ++ List.replicate k ' ') = some row := by
  induction row with
  | nil => exact readGroups_blanks k
  | cons b rest ih =>
    cases rest with
    | nil =>
      rw [List.map_singleton, List.intercalate_singleton, readGroups_hexByte, readGroups_blanks]
      rfl
    | cons b' rest =>
      rw [List.map_cons] at ih ⊢
      rw [List.map_cons, List.intercalate_cons_cons, List.append_assoc, List.append_assoc,
        readGroups_hexByte, List.singleton_append, readGroups_blank, ih]
      rfl

theorem length_intercalate (row : List UInt8) :
    (List.intercalate [' '] (row.map hexByte)).length = 3 * row.length - 1 := by
  induction row with
  | nil => rfl
  | cons b rest ih =>
    cases rest with
    | nil => rw [List.map_singleton, List.intercalate_singleton, hexByte_eq]; rfl
    | cons b' rest =>
      rw [List.map_cons] at ih ⊢
      rw [List.map_cons, List.intercalate_cons_cons, List.length_append, List.length_append, ih,
        hexByte_eq]
      simp only [List.length_cons, List.length_nil]
      omega

theorem length_hexField {row : List UInt8} (h : row.length ≤ 16) : (hexField row).length = 47 := by
  rw [hexField]
  simp only [List.length_append, List.length_replicate, length_intercalate, bytesPerLine]
  omega

theorem readGroups_hexField (row : List UInt8) : readGroups (hexField row) = some row :=
  readGroups_intercalate row _

/-! ### Lines -/

/-- The bytes of a line: its hex field are the 47 columns behind the offset, a colon and a blank. -/
def readLine (line : List Char) : Option (List UInt8) :=
  readGroups (((line.dropWhile (· ≠ ':')).drop 2).take 47)

def readDump (lines : List String) : Option (List UInt8) :=
  (lines.mapM fun line => readLine line.toList).map List.flatten

theorem readLine_lineChars {offset : Nat} {row : List UInt8} (h : row.length ≤ 16) :
    readLine (lineChars offset row) = some row := by
  have hnumber : ∀ c ∈ hexNumber 4 offset, decide (c ≠ ':') = true := by
    intro c hc
    rw [decide_eq_true_iff]
    rintro rfl
    cases digit?_isSome_of_mem_hexNumber hc
  rw [readLine, lineChars]
  simp only [List.append_assoc]
  rw [List.dropWhile_append_of_pos hnumber]
  show readGroups ((hexField row ++ _).take 47) = some row
  rw [List.take_left' (length_hexField h), readGroups_hexField]

theorem linesFrom_getElem? (offset : Nat) (data : List UInt8) (i : Nat) :
    (linesFrom offset data)[i]? =
      if 16 * i < data.length then
        some (lineChars (offset + 16 * i) ((data.drop (16 * i)).take 16))
      else none := by
  induction i generalizing offset data with
  | zero =>
    rw [linesFrom]
    by_cases hd : data = []
    · simp [hd]
    · have hpos : 0 < data.length := List.length_pos_iff.2 hd
      simp [hd, hpos, bytesPerLine]
  | succ i ih =>
    rw [linesFrom]
    by_cases hd : data = []
    · simp [hd]
    · rw [if_neg hd, List.getElem?_cons_succ, ih, List.length_drop, List.drop_drop, bytesPerLine]
      have hiff : 16 * i < data.length - 16 ↔ 16 * (i + 1) < data.length := by omega
      have hat : 16 + 16 * i = 16 * (i + 1) := by ring
      simp only [hiff, Nat.add_assoc, hat]

theorem length_linesFrom (offset : Nat) (data : List UInt8) :
    (linesFrom offset data).length = (data.length + 15) / 16 := by
  refine eq_of_forall_lt_iff fun i => ?_
  have hsome : i < (linesFrom offset data).length ↔ (linesFrom offset data)[i]?.isSome := by simp
  rw [hsome, linesFrom_getElem?]
  split_ifs with h
  · exact iff_of_true rfl (by omega)
  · exact iff_of_false nofun (by omega)

theorem mapM_readLine_linesFrom (offset : Nat) (data : List UInt8) :
    ((linesFrom offset data).mapM readLine).map List.flatten = some data := by
  induction offset, data using linesFrom.induct with
  | case1 offset => rw [linesFrom, if_pos rfl]; rfl
  | case2 offset data hd ih =>
    obtain ⟨rows, hrows, hflatten⟩ := Option.map_eq_some_iff.1 ih
    rw [linesFrom, if_neg hd, List.mapM_cons, readLine_lineChars (by simp [bytesPerLine]), hrows]
    show some ((data.take 16) ++ rows.flatten) = some data
    rw [hflatten]
    exact congrArg some (List.take_append_drop 16 data)

theorem readDump_lines (data : List UInt8) : readDump (lines data) = some data := by
  rw [readDump, lines, List.mapM_map]
  have hline : ((fun line : String => readLine line.toList) ∘ String.ofList) = readLine :=
    funext fun line => by simp
  rw [hline, mapM_readLine_linesFrom]

/-! ### Safe to print -/

/-- A character of ASCII that is shown as one mark or a blank. -/
def Printable (c : Char) : Prop := 32 ≤ c.toNat ∧ c.toNat ≤ 126

instance : DecidablePred Printable := fun _ => inferInstanceAs (Decidable (_ ∧ _))

theorem printable_of_digit {c : Char} (h : (digit? c).isSome) : Printable c := by
  rw [digit?] at h
  split_ifs at h with hdecimal hletter
  · exact ⟨by omega, by omega⟩
  · exact ⟨by omega, by omega⟩
  · cases h

theorem shownByte_eq (b : UInt8) :
    shownByte b = if 32 ≤ b.toNat ∧ b.toNat ≤ 126 then Char.ofNat b.toNat else '.' := by
  simp only [shownByte, Nat.lt_succ_iff]

theorem printable_shownByte (b : UInt8) : Printable (shownByte b) := by
  rw [shownByte_eq]
  split_ifs with h
  · have hvalid : b.toNat.isValidChar := .inl (by omega)
    have hsame : (Char.ofNat b.toNat).toNat = b.toNat := by
      rw [Char.ofNat, dif_pos hvalid]
      rfl
    rwa [Printable, hsame]
  · decide

theorem printable_intercalate (row : List UInt8) :
    ∀ c ∈ List.intercalate [' '] (row.map hexByte), Printable c := by
  have hbyte (b : UInt8) : ∀ c ∈ hexByte b, Printable c :=
    fun c hc => printable_of_digit (digit?_isSome_of_mem_hexNumber hc)
  induction row with
  | nil => exact nofun
  | cons b rest ih =>
    cases rest with
    | nil =>
      rw [List.map_singleton, List.intercalate_singleton]
      exact hbyte b
    | cons b' rest =>
      rw [List.map_cons] at ih ⊢
      rw [List.map_cons, List.intercalate_cons_cons, List.forall_mem_append, List.forall_mem_append]
      exact ⟨⟨hbyte b, by simp [Printable]⟩, ih⟩

theorem printable_hexField (row : List UInt8) : ∀ c ∈ hexField row, Printable c := by
  refine List.forall_mem_append.2 ⟨printable_intercalate row, fun c hc => ?_⟩
  rw [List.eq_of_mem_replicate hc]
  decide

theorem printable_lineChars (offset : Nat) (row : List UInt8) :
    ∀ c ∈ lineChars offset row, Printable c := by
  simp only [lineChars, List.forall_mem_append]
  refine ⟨⟨⟨⟨?_, by simp [Printable]⟩, printable_hexField row⟩, by simp [Printable]⟩, ?_⟩
  · exact fun c hc => printable_of_digit (digit?_isSome_of_mem_hexNumber hc)
  · exact List.forall_mem_map.2 fun b _ => printable_shownByte b

theorem printable_linesFrom (offset : Nat) (data : List UInt8) :
    ∀ line ∈ linesFrom offset data, ∀ c ∈ line, Printable c := by
  intro line hline
  obtain ⟨i, hi⟩ := List.mem_iff_getElem?.1 hline
  rw [linesFrom_getElem?] at hi
  split_ifs at hi with hin
  exact Option.some.inj hi ▸ printable_lineChars _ _

theorem printable_lines {data : List UInt8} {line : String} (h : line ∈ lines data) :
    ∀ c ∈ line.toList, Printable c := by
  obtain ⟨cs, hcs, rfl⟩ := List.mem_map.1 h
  rw [String.toList_ofList]
  exact printable_linesFrom 0 data cs hcs

theorem printable_decimal (n : Nat) : ∀ c ∈ (toString n).toList, Printable c := by
  intro c hc
  rw [Nat.toString_eq_repr, Nat.repr, String.toList_ofList] at hc
  have hdigit : c.isDigit = true := Nat.isDigit_of_mem_toDigits (by decide) le_rfl hc
  rw [Char.isDigit, Bool.and_eq_true, decide_eq_true_iff, decide_eq_true_iff] at hdigit
  have hlow : 48 ≤ c.toNat := hdigit.1
  have hhigh : c.toNat ≤ 57 := hdigit.2
  exact ⟨by omega, by omega⟩

theorem printable_entries {level : Log.Level} {data : List UInt8} {e : Log.Entry}
    (h : e ∈ entries level data) : ∀ c ∈ e.text.toList, Printable c := by
  rcases List.mem_cons.1 h with rfl | hline
  · show ∀ c ∈ ("hexdump of " ++ toString data.length ++ " bytes").toList, Printable c
    rw [String.toList_append, String.toList_append, List.forall_mem_append, List.forall_mem_append]
    exact ⟨⟨by simp [Printable], printable_decimal _⟩, by simp [Printable]⟩
  · obtain ⟨line, hmem, rfl⟩ := List.mem_map.1 hline
    exact printable_lines hmem

/-- A hex dump is lossless and safe to print. There is a line for each sixteen bytes. It starts with
its offset in upper-case hex, padded to four digits and no more, a colon and a blank; the hex field
of 47 columns behind them holds the bytes of its row; then, three blanks apart, each byte is shown
as itself if it is printable and as a full stop if not. Read line by line, the dump gives back the
bytes, so no two byte strings have the same dump. All that is printed, also of a message whose
payload it is, is printable ASCII. -/
theorem dump_faithful (data : List UInt8) :
    (lines data).length = (data.length + 15) / 16 ∧
    (∀ i (hi : i < (lines data).length),
      let row := (data.drop (16 * i)).take 16
      ∃ number field : List Char,
        (lines data)[i].toList = number ++ [':', ' '] ++ field ++ [' ', ' ', ' '] ++
          row.map (fun b => if 32 ≤ b.toNat ∧ b.toNat ≤ 126 then Char.ofNat b.toNat else '.') ∧
        readNumber number = some (16 * i) ∧ 4 ≤ number.length ∧
        (4 < number.length → 16 ^ (number.length - 1) ≤ 16 * i) ∧
        field.length = 47 ∧ readGroups field = some row) ∧
    readDump (lines data) = some data ∧
    (∀ other, lines other = lines data → other = data) ∧
    (∀ line ∈ lines data, ∀ c ∈ line.toList, Printable c) ∧
    ∀ topic, ∀ e ∈ (messageEntries topic data).tail, ∀ c ∈ e.text.toList, Printable c := by
  refine ⟨?_, ?_, readDump_lines data, ?_, fun line h => printable_lines h, ?_⟩
  · rw [lines, List.length_map, length_linesFrom]
  · intro i hi row
    have hlen : i < (linesFrom 0 data).length := by rwa [lines, List.length_map] at hi
    have hin : 16 * i < data.length := by
      rw [length_linesFrom] at hlen
      omega
    have hline : (linesFrom 0 data)[i] = lineChars (16 * i) row := by
      have h := linesFrom_getElem? 0 data i
      rw [if_pos hin, List.getElem?_eq_getElem hlen, Nat.zero_add] at h
      exact Option.some.inj h
    have hrow : row.length ≤ 16 := by simp [row]
    refine ⟨hexNumber 4 (16 * i), hexField row, ?_, readNumber_hexNumber 4 _, ?_,
      (pow_le_of_lt_length · (by decide)), length_hexField hrow, readGroups_hexField row⟩
    · have hshown : shownByte = fun b =>
          if 32 ≤ b.toNat ∧ b.toNat ≤ 126 then Char.ofNat b.toNat else '.' := funext shownByte_eq
      simp only [lines, List.getElem_map, String.toList_ofList, hline, lineChars, hshown]
    · rw [length_hexNumber]
      exact le_max_left _ _
  · intro other h
    have hread := readDump_lines other
    rw [h, readDump_lines] at hread
    exact (Option.some.inj hread).symm
  · intro topic e he
    rcases List.mem_append.1 he with htopic | hpayload
    · exact printable_entries htopic
    · exact printable_entries hpayload

/-- A line feed does not get into the log. -/
theorem line_feed_dumped : 0 < (lines [58, 10]).length ∧
    (∃ number field, (lines [58, 10])[0]?.map String.toList =
      some (number ++ [':', ' '] ++ field ++ [' ', ' ', ' '] ++ [':', '.']) ∧
      readGroups field = some [58, 10]) ∧
    readDump (lines [58, 10]) = some [58, 10] := by
  obtain ⟨hlength, hlines, hread, -⟩ := dump_faithful [58, 10]
  have hone : 0 < (lines [58, 10]).length := by rw [hlength]; decide
  obtain ⟨number, field, hline, -, -, -, -, hfield⟩ := hlines 0 hone
  refine ⟨hone, ⟨number, field, ?_, hfield⟩, hread⟩
  rw [List.getElem?_eq_getElem hone, Option.map_some, hline]
  rfl

end BrokerTrial.HexDump
