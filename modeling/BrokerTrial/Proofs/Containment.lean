import BrokerTrial.Proofs.Overflow
import BrokerTrial.Proofs.Partition
import BrokerTrial.Proofs.Reading

/-! Which configurations are neither read nor refused. A fault passes through unrefused in three
cases (`Reading.Escapes`): a section is no mapping, an infinite number is read as a whole one, a
number of seconds is too large. So a configuration is read or refused exactly if none of these is
the first fault of its readings (`contained_iff`). -/

namespace BrokerTrial

namespace Settings

/-- The faults that are no refusals. -/
def Reading.Escapes : Reading → Prop
  | .members v => ∀ entries, v ≠ .mapping entries
  | .size v | .cap v | .whole v => ∃ negative, v = .float (Binary64.infinity negative)
  | .fraction v => ∃ n : Int, v = .int n ∧ Binary64.bound ≤ n.natAbs
  | .elements _ | .entry _ | .text _ => False

/-! ### Which faults escape -/

theorem wholeOfText_refused {cs : List Char} {shown : String} {m : Value.Misuse}
    (h : Value.wholeOfText cs shown = .error m) : (Error.misuse m).refuses = true := by
  unfold Value.wholeOfText at h
  cases hwhole : Value.Number.whole cs with
  | ok n =>
    rw [hwhole] at h
    cases h
  | error fault =>
    rw [hwhole] at h
    cases fault with
    | malformed =>
      obtain rfl := Except.error.inj h
      rfl
    | tooMany count =>
      obtain rfl := Except.error.inj h
      rfl

theorem fractionOfText_refused {cs : List Char} {shown : String} {m : Value.Misuse}
    (h : Value.fractionOfText cs shown = .error m) : (Error.misuse m).refuses = true := by
  unfold Value.fractionOfText at h
  cases hfraction : Value.Number.ofText? cs with
  | some x =>
    rw [hfraction] at h
    cases h
  | none =>
    rw [hfraction] at h
    obtain rfl := Except.error.inj h
    rfl

theorem ofChunker_refused (e : Chunker.Error) : (Error.ofChunker e).refuses = true := by
  unfold Error.ofChunker
  cases e with
  | sizeNotPositive size =>
    dsimp only
    split_ifs <;> rfl
  | _ => rfl

theorem ofLimit_refused (e : ResendLimit.Error) : (Error.ofLimit e).refuses = true := by
  unfold Error.ofLimit
  dsimp only
  split_ifs <;> rfl

theorem toText?_refused {v : Value} {m : Value.Misuse} (h : v.toText? = .error m) :
    (Error.misuse m).refuses = true := by
  unfold Value.toText? at h
  split_ifs at h
  obtain rfl := Except.error.inj h
  rfl

theorem elements_refused {v : Value} {m : Value.Misuse} (h : v.elements = .error m) :
    (Error.misuse m).refuses = true := by
  cases v
  case null | bool | int | float | date | datetime =>
    obtain rfl := Except.error.inj h
    rfl
  all_goals cases h

theorem index_refused {v : Value} {key : String} {m : Value.Misuse} (h : v.index key = .error m) :
    (Error.misuse m).refuses = true := by
  cases v with
  | mapping entries =>
    unfold Value.index at h
    dsimp only at h
    cases hmember : Value.member? entries key with
    | some x =>
      rw [hmember] at h
      cases h
    | none =>
      rw [hmember] at h
      obtain rfl := Except.error.inj h
      rfl
  | _ =>
    obtain rfl := Except.error.inj h
    rfl

/-- The number that a text stands for is read, or the text is refused: only an infinite number is
of the right kind and still has no whole part. -/
theorem toInt?_escapes {v : Value} {m : Value.Misuse} (h : v.toInt? = .error m) :
    (Error.misuse m).refuses = false ↔ ∃ negative, v = .float (Binary64.infinity negative) := by
  cases v with
  | bool b => cases h
  | int n => cases h
  | float x =>
    simp only [Value.float.injEq, ← Binary64.no_whole_iff]
    unfold Value.toInt? at h
    dsimp only at h
    cases hwhole : x.truncate? with
    | some n =>
      rw [hwhole] at h
      cases h
    | none =>
      rw [hwhole] at h
      obtain rfl := Except.error.inj h
      cases x.isNaN <;> simp [Error.refuses, Error.category, Value.Misuse.category]
  | str s => simp [wholeOfText_refused h]
  | bytes bs => simp [wholeOfText_refused h]
  | _ =>
    obtain rfl := Except.error.inj h
    simp [Error.refuses, Error.category, Value.Misuse.category]

theorem toInt?_infinity (negative : Bool) :
    (Value.float (Binary64.infinity negative)).toInt? = .error .wholeOfInfinity := by
  obtain ⟨hwhole, hnan⟩ := (Binary64.no_whole_iff _).2 ⟨negative, rfl⟩
  unfold Value.toInt?
  dsimp only
  rw [hwhole, hnan]
  rfl

/-- What is done with a whole number can be refused as well, but it does not escape. -/
theorem whole_escapes {β : Type} {v : Value} {f : Int → Except Error β} {e : Error}
    (hf : ∀ n e, f n = .error e → e.refuses = true) (h : fault? (lift v.toInt? >>= f) = some e) :
    e.refuses = false ↔ ∃ negative, v = .float (Binary64.infinity negative) := by
  cases hwhole : v.toInt? with
  | error m =>
    rw [hwhole] at h
    obtain rfl := Option.some.inj h
    exact toInt?_escapes hwhole
  | ok n =>
    rw [hwhole] at h
    have hn : f n = .error e := error_of_fault h
    rw [hf n e hn]
    simp only [Bool.true_eq_false, false_iff, not_exists]
    rintro negative rfl
    rw [toInt?_infinity] at hwhole
    cases hwhole

theorem toBinary64?_escapes {v : Value} {m : Value.Misuse} (h : v.toBinary64? = .error m) :
    (Error.misuse m).refuses = false ↔ ∃ n : Int, v = .int n ∧ Binary64.bound ≤ n.natAbs := by
  cases v with
  | bool b => cases h
  | int n =>
    simp only [Value.int.injEq, exists_eq_left', ← Binary64.ofInt?_eq_none_iff]
    unfold Value.toBinary64? at h
    dsimp only at h
    cases hfraction : Binary64.ofInt? n with
    | some x =>
      rw [hfraction] at h
      cases h
    | none =>
      rw [hfraction] at h
      obtain rfl := Except.error.inj h
      simp [Error.refuses, Error.category, Value.Misuse.category]
  | float x => cases h
  | str s => simp [fractionOfText_refused h]
  | bytes bs => simp [fractionOfText_refused h]
  | _ =>
    obtain rfl := Except.error.inj h
    simp [Error.refuses, Error.category, Value.Misuse.category]

theorem toBinary64?_tooLarge {n : Int} (h : Binary64.bound ≤ n.natAbs) :
    (Value.int n).toBinary64? = .error .tooLarge := by
  unfold Value.toBinary64?
  dsimp only
  rw [(Binary64.ofInt?_eq_none_iff n).2 h]

theorem ofConfig_of_error {payload : List UInt8} {config : Value} {tls : Bool} {e : Error}
    (h : read payload config tls = .error e) :
    ofConfig payload config tls = .error (if e.refuses then .refused e else .escaped e) := by
  rw [ofConfig, h]
  rfl

theorem Reading.escapes_iff {payload : List UInt8} {r : Reading} {e : Error}
    (h : r.fault? payload = some e) : e.refuses = false ↔ r.Escapes := by
  cases r with
  | members v =>
    cases v with
    | mapping entries => cases h
    | _ =>
      obtain rfl := Option.some.inj h
      refine iff_of_true rfl fun entries hv => ?_
      cases hv
  | size v =>
    refine whole_escapes (fun n e' hn => ?_) h
    obtain ⟨e, -, rfl⟩ := error_of_mapError hn
    exact ofChunker_refused e
  | cap v =>
    refine whole_escapes (fun n e' hn => ?_) h
    obtain ⟨e, -, rfl⟩ := error_of_mapError hn
    exact ofLimit_refused e
  | elements v =>
    obtain ⟨m, hm, rfl⟩ := error_of_mapError (error_of_fault h)
    simp [elements_refused hm, Escapes]
  | entry v =>
    obtain ⟨m, hm, rfl⟩ := error_of_mapError (error_of_fault h)
    simp [index_refused hm, Escapes]
  | text v =>
    obtain ⟨m, hm, rfl⟩ := error_of_mapError (error_of_fault h)
    simp [toText?_refused hm, Escapes]
  | whole v =>
    rw [fault?, ← bind_pure (lift v.toInt?)] at h
    exact whole_escapes (fun n e' hn => by cases hn) h
  | fraction v =>
    obtain ⟨m, hm, rfl⟩ := error_of_mapError (error_of_fault h)
    exact toBinary64?_escapes hm

theorem Reading.Escapes.fault {r : Reading} (h : r.Escapes) (payload : List UInt8) :
    ∃ e, r.fault? payload = some e := by
  cases r with
  | members v =>
    cases v with
    | mapping entries => exact absurd rfl (h entries)
    | _ => exact ⟨_, rfl⟩
  | size v | cap v | whole v =>
    obtain ⟨negative, rfl⟩ := h
    rw [fault?, toInt?_infinity]
    exact ⟨_, rfl⟩
  | fraction v =>
    obtain ⟨n, rfl, hn⟩ := h
    rw [fault?, toBinary64?_tooLarge hn]
    exact ⟨_, rfl⟩
  | elements v | entry v | text v => cases h

theorem firstFault?_eq_some {payload : List UInt8} {rs : List Reading} {e : Error} :
    firstFault? payload rs = some e ↔ ∃ before r after, rs = before ++ r :: after ∧
      r.fault? payload = some e ∧ ∀ q ∈ before, q.fault? payload = none := by
  rw [firstFault?, List.findSome?_eq_some_iff]

/-- A configuration is read or refused, unless the first of its readings that has a fault is one
that escapes: a section that is no mapping, an infinite number where a whole one is read, or a
number of seconds beyond the finite range. -/
theorem contained_iff (payload : List UInt8) (entries : List (Value × Value)) (tls : Bool) :
    ((∃ settings, ofConfig payload (.mapping entries) tls = .ok settings) ∨
        ∃ e, ofConfig payload (.mapping entries) tls = .error (.refused e)) ↔
      ∀ before r after, readings (.mapping entries) tls = before ++ r :: after →
        (∀ q ∈ before, q.fault? payload = none) → ¬ r.Escapes := by
  have hfault := fault_read payload entries tls
  constructor
  · intro hcontained before r after hreadings hbefore hescapes
    obtain ⟨e, he⟩ := hescapes.fault payload
    rw [firstFault?_eq_some.2 ⟨before, r, after, hreadings, he, hbefore⟩] at hfault
    have hconfig := ofConfig_of_error (error_of_fault hfault)
    rw [(Reading.escapes_iff he).2 hescapes] at hconfig
    rcases hcontained with ⟨settings, hok⟩ | ⟨e', hrefused⟩
    · rw [hok] at hconfig
      cases hconfig
    · rw [hrefused] at hconfig
      cases hconfig
  · intro hnone
    cases hread : read payload (.mapping entries) tls with
    | ok settings => exact .inl ⟨settings, by rw [ofConfig, hread]; rfl⟩
    | error e =>
      rw [hread] at hfault
      obtain ⟨before, r, after, hreadings, he, hbefore⟩ := firstFault?_eq_some.1 hfault.symm
      have hrefuses : e.refuses = true := by
        rw [← Bool.not_eq_false, Reading.escapes_iff he]
        exact hnone before r after hreadings hbefore
      have hconfig := ofConfig_of_error hread
      rw [hrefuses] at hconfig
      exact .inr ⟨e, hconfig⟩

/-- A section whose name stands there with nothing in it is no mapping. -/
theorem empty_section_escapes :
    ofConfig BrokerTrial.payload (.mapping [(.str "mqtt", .null)]) false =
        .error (.escaped (.misuse (.noMember .null "get"))) ∧
      ¬ ((∃ settings, ofConfig BrokerTrial.payload (.mapping [(.str "mqtt", .null)]) false =
          .ok settings) ∨
        ∃ e, ofConfig BrokerTrial.payload (.mapping [(.str "mqtt", .null)]) false =
          .error (.refused e)) := by
  have hescapes : ofConfig BrokerTrial.payload (.mapping [(.str "mqtt", .null)]) false =
      .error (.escaped (.misuse (.noMember .null "get"))) := by
    have hpayload := payload_ne_nil
    generalize BrokerTrial.payload = bytes at hpayload ⊢
    cases bytes with
    | nil => exact absurd rfl hpayload
    | cons b rest => rfl
  refine ⟨hescapes, ?_⟩
  rw [hescapes]
  rintro (⟨settings, hok⟩ | ⟨e, hrefused⟩)
  · cases hok
  · cases hrefused

end Settings

end BrokerTrial
