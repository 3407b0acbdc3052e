import BrokerTrial.Session.Basic
import BrokerTrial.Session.Event

/-!
The session as a machine: from a standing and one event to the next standing and a list of effects,
in the order in which they happen. `accepts` says which requests the transport takes; no event
leads to more than one request that sends.
-/

namespace BrokerTrial

namespace Session

inductive Error
  | noPayload (topic : String)
  | noTransition (edge : Edge) (stage : Stage)
  | chunk (e : Chunker.Error)
deriving DecidableEq, Repr

def Error.message : Error → String
  | .noPayload topic => s!"Inbound message on '{topic}' carries no payload"
  | .noTransition edge stage => s!"No {edge.label} transition out of {stage.label}"
  | .chunk e => e.message

/-- The outcome of an event. Effects before an error stand. -/
structure Reaction where
  standing : Standing
  effects : List Effect := []
  error : Option Error := none

/-- A reaction that first has other effects. -/
def Reaction.after (r : Reaction) (effects : List Effect) : Reaction :=
  { r with effects := effects ++ r.effects }

/-- Goes along an edge, or fails where there is none. -/
def take (s : Standing) (edge : Edge) : Except Error (Standing × Effect) :=
  match s.stage.next? edge with
  | none => .error (.noTransition edge s.stage)
  | some stage =>
    .ok ({ s with session := { s.session with stage } },
      .log (Log.debug s!"{s.stage.label} -> {stage.label} ({edge.label})"))

/-- Ends the run as a failure, unless the workflow is already finished. -/
def abort (s : Standing) (reason : String) : Reaction :=
  if s.stage = .finish then
    { standing := s
      effects := [.log (Log.debug s!"Ignoring '{reason}' after the workflow finished.")] }
  else
    { standing := { s with verdict := s.verdict.fail reason }
      effects := .log (Log.error s!"Aborting session in {s.stage.label}: {reason}") ::
        (s.verdict.failEntries reason).map .log ++ [.request .cancel] }

def subscribe (plan : Plan) (accepts : Request → Bool) (s : Standing) : Reaction :=
  let request := Request.subscribe plan.topics
  let sent := [.log (Log.info "Writeable: subscribing"), .request request]
  if accepts request then
    { standing := { s with session := { s.session with subscribePending := true } }
      effects := sent }
  else
    (abort s "subscribe rejected by transport").after
      (sent ++ [.log (Log.warning "Subscribe failed")])

/-- Moves on behind a chunk that was accepted: behind the last one the session waits for the
acknowledgement, with its position back at the start. -/
def written (plan : Plan) (s : Standing) (chunk : Chunk) : Reaction :=
  let position := s.session.position + chunk.data.length
  if position = plan.chunker.total then
    let s := { s with session := { s.session with position := 0 } }
    match take s .advance with
    | .error e => { standing := s, error := some e }
    | .ok (s, entry) => { standing := s, effects := [entry] }
  else
    { standing := { s with session := { s.session with position } }
      effects := [.request .write] }

def publishNext (plan : Plan) (accepts : Request → Bool) (s : Standing) (qos : Int) : Reaction :=
  match plan.chunker.chunkAt s.session.position with
  | .error e => { standing := s, error := some (.chunk e) }
  | .ok chunk =>
    let request := Request.publish ⟨plan.publishTopic, qos, plan.chunker.total, chunk.final⟩
      chunk.data
    let sent := [
      .log (Log.info (s!"Writeable: publishing {chunk.data.length} bytes at offset " ++
        s!"{s.session.position} (QoS{qos})")),
      .request request]
    if accepts request then (written plan s chunk).after sent
    else
      (abort s s!"publish at QoS{qos} rejected by transport").after
        (sent ++ [.log (Log.warning s!"Publish at QoS{qos} failed")])

/-- Writes can be offered unasked, so the stage alone decides what there is to send. -/
def onWriteOpportunity (plan : Plan) (accepts : Request → Bool) (s : Standing) : Reaction :=
  if s.terminated then
    { standing := s
      effects := [.log (Log.debug
        s!"Write opportunity after termination in {s.stage.label}, ignoring.")] }
  else if s.stage = .subscribe then
    if s.session.subscribePending then
      { standing := s
        effects := [.log (Log.debug "Subscribe in flight, waiting for the broker.")] }
    else subscribe plan accepts s
  else
    match s.stage.publishQos? with
    | some qos => publishNext plan accepts s qos
    | none =>
      { standing := s, effects := [.log (Log.debug s!"Nothing to write in {s.stage.label}.")] }

def onSubscribed (s : Standing) : Reaction :=
  let heard := [.log (Log.info "MQTT subscribed")]
  if s.terminated then { standing := s, effects := heard }
  else if s.stage ≠ .subscribe ∨ !s.session.subscribePending then
    { standing := s
      effects := heard ++ [.log (Log.warning
        s!"Unexpected subscribe confirmation in {s.stage.label}, ignoring.")] }
  else
    let s := { s with session := { s.session with subscribePending := false } }
    match take s .advance with
    | .error e => { standing := s, effects := heard, error := some e }
    | .ok (s, entry) => { standing := s, effects := heard ++ [entry, .request .write] }

/-- An acknowledgement moves on from whatever stage the session is in. -/
def onAcknowledged (s : Standing) : Reaction :=
  let heard := [.log (Log.info s!"MQTT ack in {s.stage.label}")]
  if s.terminated then { standing := s, effects := heard }
  else
    match take s .advance with
    | .error e => { standing := s, effects := heard, error := some e }
    | .ok (s, entry) =>
      if s.stage = .finish then
        { standing := { s with verdict := s.verdict.succeed }
          effects := heard ++ [entry, .log (Log.info "Workflow finished, stopping the service."),
            .request .cancel] }
      else if s.stage.publishQos?.isSome then
        { standing := { s with session := { s.session with resends := 0, position := 0 } }
          effects := heard ++ [entry, .request .write] }
      else { standing := s, effects := heard ++ [entry] }

def onResendRequested (plan : Plan) (s : Standing) (attempt : Int) : Reaction :=
  let heard := [.log (Log.info s!"MQTT resend requested for publish attempt {attempt}")]
  if s.terminated then { standing := s, effects := heard }
  else if s.stage ≠ .waitAck1 then
    { standing := s
      effects := heard ++ [.log (Log.warning (s!"Resend request in {s.stage.label} ignored, " ++
        "only a QoS1 publish is ever resent."))] }
  else
    let resends := s.session.resends + 1
    let s := { s with session := { s.session with resends } }
    if plan.limit.allows resends then
      match take s .resend with
      | .error e => { standing := s, effects := heard, error := some e }
      | .ok (s, entry) =>
        { standing := { s with session := { s.session with position := 0 } }
          effects := heard ++ [entry, .request .write] }
    else
      (abort s s!"QoS1 publish not acknowledged after {resends} resend requests").after heard

/-- A connection that failed without a message, or with an empty one. -/
def failureText (message : Option String) : String :=
  match message with
  | none => "(null)"
  | some text => if text = "" then "(null)" else text

def handle (plan : Plan) (accepts : Request → Bool) (s : Standing) : Event → Reaction
  | .connectionEstablished =>
    { standing := s
      effects := [.log (Log.info "MQTT client established"), .request .write] }
  | .connectionFailed message =>
    (abort s s!"connection error: {failureText message}").after
      [.log (Log.error s!"Client connection error: {failureText message}")]
  | .connectionClosed =>
    (abort s "connection closed").after [.log (Log.info "Client closed")]
  | .subscribed => onSubscribed s
  | .writeOpportunity => onWriteOpportunity plan accepts s
  | .acknowledged => onAcknowledged s
  | .resendRequested attempt => onResendRequested plan s attempt
  | .messageReceived topic none => { standing := s, error := some (.noPayload topic) }
  | .messageReceived topic (some payload) =>
    { standing := s, effects := [.deliver topic payload] }
  | .serviceCancelled =>
    { standing := s, effects := [.log (Log.debug "Service cancelled")] }
  | .unspecific =>
    { standing := s
      effects := [.log (Log.warning "No handler for event SessionEvent(), ignoring it.")] }

/-- How many requests for a write opportunity there are among effects. -/
def writesRequested (effects : List Effect) : Nat :=
  effects.countP fun
    | .request .write => true
    | _ => false

end Session

end BrokerTrial
