import BrokerTrial.Settings.Basic
import Mathlib.Tactic

/-! A configuration is read value by value, in a fixed order. `readings` lists what is read of it,
and the first fault in that list is the error that reading the configuration ends with
(`fault_read`). -/

namespace BrokerTrial

/-- The member under a key of what is known to be a mapping, or `fallback`. -/
def Value.setting (v : Value) (key : String) (fallback : Value) : Value :=
  match v with
  | .mapping entries => (member? entries key).getD fallback
  | _ => fallback

namespace Settings

/-- A value that is read, as what it is read: a section, which is asked for its members, the size of
chunks, the cap on resends, what the entries of a subscription are gone through in, one of these
entries, which has to have a topic, a text, a whole number or a number of seconds. -/
inductive Reading
  | members (v : Value)
  | size (v : Value)
  | cap (v : Value)
  | elements (v : Value)
  | entry (v : Value)
  | text (v : Value)
  | whole (v : Value)
  | fraction (v : Value)

def fault? {ε α : Type} : Except ε α → Option ε
  | .ok _ => none
  | .error e => some e

namespace Reading

def fault? (payload : List UInt8) : Reading → Option Error
  | .members v =>
    match v with
    | .mapping _ => none
    | v => some (.misuse (.noMember v.kind "get"))
  | .size v => Settings.fault? do (Chunker.ofPayload? payload (← lift v.toInt?)).mapError .ofChunker
  | .cap v => Settings.fault? do (ResendLimit.ofCap? (← lift v.toInt?)).mapError .ofLimit
  | .elements v => Settings.fault? (lift v.elements)
  | .entry v => Settings.fault? (lift (v.index "topic"))
  | .text v => Settings.fault? (lift v.toText?)
  | .whole v => Settings.fault? (lift v.toInt?)
  | .fraction v => Settings.fault? (lift v.toBinary64?)

end Reading

def chunkerReadings (publish : Value) : List Reading :=
  [.members publish, .size (publish.setting "chunk_size" (.int Chunker.defaultSize))]

def limitReadings (retry : Value) : List Reading :=
  [.members retry, .cap (retry.setting "retry_cap" (.int ResendLimit.usual.cap))]

def entryReadings (entry : Value) : List Reading :=
  [.entry entry, .text (entry.setting "topic" .null), .whole (entry.setting "qos" (.int 0))]

def topicReadings (entries : Value) : List Reading :=
  if entries.truth then
    .elements entries :: (entries.elements.toOption.getD []).flatMap entryReadings
  else []

def connectionReadings (mqtt : Value) (tls : Bool) : List Reading :=
  let will := mqtt.setting "will" (.mapping [])
  let useTls := tls || (mqtt.setting "tls" (.bool false)).truth
  [.members mqtt,
    .whole (mqtt.setting "port" (.int (Connection.defaultPort useTls))),
    .whole (mqtt.setting "keep_alive" (.int 60)),
    .members will,
    .whole (will.setting "qos" (.int 0)),
    .text (mqtt.setting "protocol" (.str "3.1.1"))]

def patienceReadings (retry : Value) : List Reading :=
  [.members retry,
    .fraction (retry.setting "secs_since_valid_ping" (.int 20)),
    .fraction (retry.setting "secs_since_valid_hangup" (.int 25))]

/-- What is read of a configuration, in order. A section that is no mapping is not read any further,
so what is listed behind it does not matter. -/
def readings (config : Value) (tls : Bool) : List Reading :=
  let retry := config.setting "retry" (.mapping [])
  chunkerReadings (config.setting "publish" (.mapping [])) ++ (limitReadings retry ++
    (topicReadings (config.setting "subscribe" .null) ++
      (connectionReadings (config.setting "mqtt" (.mapping [])) tls ++ patienceReadings retry)))

def firstFault? (payload : List UInt8) (rs : List Reading) : Option Error :=
  rs.findSome? (Reading.fault? payload)

/-! ### Results and errors -/

theorem ok_of_bind {α β ε : Type} {x : Except ε α} {f : α → Except ε β} {b : β}
    (h : x.bind f = .ok b) : ∃ a, x = .ok a ∧ f a = .ok b := by
  cases x with
  | error e => cases h
  | ok a => exact ⟨a, rfl, h⟩

theorem ok_of_mapError {α ε ε' : Type} {x : Except ε α} {f : ε → ε'} {a : α}
    (h : x.mapError f = .ok a) : x = .ok a := by
  cases x with
  | error e => cases h
  | ok b => exact congrArg Except.ok (Except.ok.inj h)

theorem error_of_mapError {α ε ε' : Type} {x : Except ε α} {f : ε → ε'} {e' : ε'}
    (h : x.mapError f = .error e') : ∃ e, x = .error e ∧ f e = e' := by
  cases x with
  | ok a => cases h
  | error e => exact ⟨e, rfl, Except.error.inj h⟩

theorem error_of_fault {α ε : Type} {x : Except ε α} {e : ε} (h : fault? x = some e) :
    x = .error e := by
  cases x with
  | ok a => cases h
  | error e' => exact congrArg Except.error (Option.some.inj h)

/-! ### The first fault is reported -/

section

variable {payload : List UInt8} {α β : Type} {x : Except Error α} {f : α → Except Error β}
  {r : Reading} {rs rest : List Reading}

theorem firstFault?_cons (r : Reading) (rs : List Reading) :
    firstFault? payload (r :: rs) = (r.fault? payload).or (firstFault? payload rs) := by
  rw [firstFault?, List.findSome?_cons]
  cases r.fault? payload <;> rfl

theorem firstFault?_singleton (r : Reading) : firstFault? payload [r] = r.fault? payload := by
  rw [firstFault?_cons]
  exact Option.or_none

theorem fault?_bind {c : Option Error} (hf : ∀ a, x = .ok a → fault? (f a) = c) :
    fault? (x >>= f) = (fault? x).or c := by
  cases hx : x with
  | ok a => exact hf a hx
  | error e => rfl

theorem fault?_returns (hf : ∀ a, x = .ok a → fault? (f a) = none) :
    fault? (x >>= f) = fault? x := by
  rw [fault?_bind hf, Option.or_none]

theorem fault?_reads (hx : fault? x = r.fault? payload)
    (hf : ∀ a, x = .ok a → fault? (f a) = firstFault? payload rest) :
    fault? (x >>= f) = firstFault? payload (r :: rest) := by
  rw [fault?_bind hf, hx, firstFault?_cons]

theorem fault?_readsAll (hx : fault? x = firstFault? payload rs)
    (hf : ∀ a, x = .ok a → fault? (f a) = firstFault? payload rest) :
    fault? (x >>= f) = firstFault? payload (rs ++ rest) := by
  rw [fault?_bind hf, hx, firstFault?, firstFault?, firstFault?, List.findSome?_append]

theorem lift_bind {x : Except Value.Misuse α} {f : α → Except Value.Misuse β} :
    lift (x >>= f) = lift x >>= fun a => lift (f a) := by
  cases x <;> rfl

theorem members_bind {entries : List (Value × Value)} {key : String} {fallback : Value}
    {f : Value → Except Error β} :
    (lift ((Value.mapping entries).member key fallback) >>= f) =
      f ((Value.mapping entries).setting key fallback) := rfl

theorem fault?_members {v : Value} {key : String} {fallback : Value} {f : Value → Except Error β}
    (hf : ∀ entries, v = .mapping entries →
      fault? (f (v.setting key fallback)) = firstFault? payload rest) :
    fault? (lift (v.member key fallback) >>= f) = firstFault? payload (.members v :: rest) := by
  rw [firstFault?_cons]
  cases v with
  | mapping entries => exact hf entries rfl
  | _ => rfl

end

theorem fault_chunkerOf (payload : List UInt8) (publish : Value) :
    fault? (chunkerOf payload publish) = firstFault? payload (chunkerReadings publish) := by
  simp only [chunkerOf, lift_bind, bind_assoc, chunkerReadings]
  refine fault?_members fun entries _ => ?_
  exact (firstFault?_singleton (.size _)).symm

theorem fault_limitOf (payload : List UInt8) (entries : List (Value × Value)) :
    fault? (limitOf (.mapping entries)) =
      firstFault? payload
        (limitReadings ((Value.mapping entries).setting "retry" (.mapping []))) := by
  simp only [limitOf, lift_bind, members_bind, bind_assoc, limitReadings]
  refine fault?_members fun retry _ => ?_
  exact (firstFault?_singleton (.cap _)).symm

theorem index_eq_ok {v x : Value} {key : String} (h : v.index key = .ok x) :
    ∃ entries, v = .mapping entries ∧ ∀ fallback, v.setting key fallback = x := by
  cases v with
  | mapping entries =>
    refine ⟨entries, rfl, fun fallback => ?_⟩
    unfold Value.index at h
    dsimp only [Value.setting] at h ⊢
    cases hmember : Value.member? entries key with
    | none => simp [hmember] at h
    | some y =>
      simp only [hmember, Except.ok.injEq] at h
      exact h
  | _ => cases h

theorem fault_topicOfEntry (payload : List UInt8) (entry : Value) :
    fault? (lift (Subscription.topicOfEntry entry)) =
      firstFault? payload (entryReadings entry) := by
  simp only [Subscription.topicOfEntry, lift_bind, entryReadings]
  refine fault?_reads rfl fun topic htopic => ?_
  obtain ⟨entries, rfl, hsetting⟩ := index_eq_ok (ok_of_mapError htopic)
  rw [hsetting]
  simp only [members_bind]
  refine fault?_reads rfl fun text _ => ?_
  refine fault?_reads rfl fun qos _ => ?_
  rfl

theorem fault_mapM_topicOfEntry (payload : List UInt8) (entries : List Value) :
    fault? (lift (entries.mapM Subscription.topicOfEntry)) =
      firstFault? payload (entries.flatMap entryReadings) := by
  induction entries with
  | nil => rfl
  | cons entry rest ih =>
    rw [List.mapM_cons, lift_bind, List.flatMap_cons]
    refine fault?_readsAll (fault_topicOfEntry payload entry) fun topic _ => ?_
    rw [lift_bind]
    exact (fault?_returns fun _ _ => rfl).trans ih

theorem fault_ofEntries (payload : List UInt8) (entries : Value) :
    fault? (lift (Subscription.ofEntries entries)) =
      firstFault? payload (topicReadings entries) := by
  unfold Subscription.ofEntries topicReadings
  split_ifs
  · rw [lift_bind]
    refine fault?_reads rfl fun items hitems => ?_
    rw [ok_of_mapError hitems]
    exact fault_mapM_topicOfEntry payload items
  · rfl

theorem fault_ofConfig_connection (payload : List UInt8) (entries : List (Value × Value))
    (tls : Bool) :
    fault? (lift (Connection.ofConfig (.mapping entries) tls)) =
      firstFault? payload
        (connectionReadings ((Value.mapping entries).setting "mqtt" (.mapping [])) tls) := by
  simp only [Connection.ofConfig, lift_bind, members_bind, connectionReadings]
  refine fault?_members fun mqtt hmqtt => ?_
  rw [hmqtt]
  simp only [members_bind]
  refine fault?_reads rfl fun port _ => ?_
  refine fault?_reads rfl fun keepAlive _ => ?_
  refine fault?_members fun will hwill => ?_
  rw [hwill]
  simp only [members_bind]
  refine fault?_reads rfl fun qos _ => ?_
  refine fault?_reads rfl fun protocol _ => ?_
  rfl

theorem fault_ofConfig_patience (payload : List UInt8) (entries : List (Value × Value)) :
    fault? (lift (Patience.ofConfig (.mapping entries))) =
      firstFault? payload
        (patienceReadings ((Value.mapping entries).setting "retry" (.mapping []))) := by
  simp only [Patience.ofConfig, lift_bind, members_bind, patienceReadings]
  refine fault?_members fun retry hretry => ?_
  rw [hretry]
  simp only [members_bind]
  refine fault?_reads rfl fun ping _ => ?_
  refine fault?_reads rfl fun hangup _ => ?_
  rfl

theorem mapping_of_chunkerOf {payload : List UInt8} {publish : Value} {chunker : Chunker}
    (h : chunkerOf payload publish = .ok chunker) : ∃ entries, publish = .mapping entries := by
  cases publish with
  | mapping entries => exact ⟨entries, rfl⟩
  | _ => cases h

/-- The first fault of what is read of a configuration is the error that reading it ends with. -/
theorem fault_read (payload : List UInt8) (entries : List (Value × Value)) (tls : Bool) :
    fault? (read payload (.mapping entries) tls) =
      firstFault? payload (readings (.mapping entries) tls) := by
  simp only [read, lift_bind, members_bind, readings]
  refine fault?_readsAll (fault_chunkerOf ..) fun chunker hchunker => ?_
  obtain ⟨publish, hpublish⟩ := mapping_of_chunkerOf hchunker
  rw [hpublish]
  refine fault?_readsAll (fault_limitOf ..) fun limit _ => ?_
  refine fault?_readsAll (fault_ofEntries ..) fun topics _ => ?_
  refine fault?_readsAll (fault_ofConfig_connection ..) fun connection _ => ?_
  exact (fault?_returns fun _ _ => rfl).trans (fault_ofConfig_patience ..)

end Settings

end BrokerTrial
