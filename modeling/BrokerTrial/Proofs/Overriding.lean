import BrokerTrial.Program
import BrokerTrial.Proofs.Reading

/-! Settings that are put into a configuration. What is put under a key is read there, and all else
is read as before (`setting_insert`). Of the settings only the connection goes by the section of the
broker (`ofConfig_map_connection`). So the command line and the configuration select encryption and
the host to the same effect (`overrides_agree`). -/

namespace BrokerTrial

namespace Value

theorem eq_str_of_sameKey {v : Value} {key : String} (h : v.sameKey (.str key) = true) :
    v = .str key := by
  cases v with
  | str s => simpa [sameKey] using h
  | float x => cases hx : x.toRat? <;> simp [sameKey, numeric?, hx] at h
  | _ => simp [sameKey, numeric?] at h

theorem sameKey_str (s key : String) : (str s).sameKey (.str key) = decide (s = key) := by
  rw [sameKey]

theorem member?_cons (e : Value × Value) (rest : List (Value × Value)) (key : String) :
    member? (e :: rest) key = if e.1.sameKey (.str key) then some e.2 else member? rest key := by
  simp only [member?, List.find?_cons]
  cases e.1.sameKey (.str key) <;> rfl

/-- What is put under a key is found there, and nothing else changes. -/
theorem member?_insert (entries : List (Value × Value)) (key key' : String) (x : Value) :
    member? (insert entries (.str key) x) key' =
      if key = key' then some x else member? entries key' := by
  induction entries with
  | nil =>
    rw [insert, member?_cons, sameKey_str]
    simp only [decide_eq_true_eq]
  | cons e rest ih =>
    rw [insert]
    by_cases hkey : e.1.sameKey (.str key) = true
    · rw [if_pos hkey, member?_cons, member?_cons, eq_str_of_sameKey hkey, sameKey_str]
      by_cases hsame : key = key' <;> simp [hsame]
    · rw [if_neg hkey, member?_cons, member?_cons, ih]
      by_cases hsame : key = key'
      · rw [if_pos hsame, if_pos hsame, ← hsame, if_neg hkey]
      · rw [if_neg hsame, if_neg hsame]

theorem setting_insert (entries : List (Value × Value)) (key : String) (x : Value) (key' : String)
    (fallback : Value) :
    (mapping (insert entries (.str key) x)).setting key' fallback =
      if key = key' then x else (mapping entries).setting key' fallback := by
  show (member? (insert entries (.str key) x) key').getD fallback = _
  rw [member?_insert]
  split_ifs <;> rfl

theorem member_bind {β : Type} (entries : List (Value × Value)) (key : String) (fallback : Value)
    (f : Value → Except Misuse β) :
    ((mapping entries).member key fallback >>= f) = f ((mapping entries).setting key fallback) :=
  rfl

end Value

open Value

namespace Connection

variable {entries broker : List (Value × Value)} {tls : Bool}

/-- The connection that a section of the broker writes. -/
def ofBroker (broker : List (Value × Value)) (tls : Bool) : Except Misuse Connection :=
  ofConfig (.mapping [(.str "mqtt", .mapping broker)]) tls

theorem broker_setting (broker : List (Value × Value)) :
    (mapping [(.str "mqtt", .mapping broker)]).setting "mqtt" (.mapping []) = .mapping broker := rfl

theorem ofConfig_eq_ofBroker
    (h : (mapping entries).setting "mqtt" (.mapping []) = .mapping broker) :
    ofConfig (.mapping entries) tls = ofBroker broker tls := by
  unfold ofBroker ofConfig
  rw [member_bind, member_bind, h, broker_setting]

theorem ofBroker_tls :
    ofBroker (insert broker (.str "tls") (.bool true)) false = ofBroker broker true := by
  have hsetting := setting_insert broker "tls" (.bool true)
  unfold ofBroker ofConfig
  simp only [member_bind, broker_setting]
  simp only [hsetting, reduceIte, String.reduceEq]
  rfl

theorem ofBroker_host (host : Value) :
    ofBroker (insert broker (.str "host") host) tls =
      (ofBroker broker tls).map fun c => { c with host } := by
  have hsetting := setting_insert broker "host" host
  unfold ofBroker ofConfig
  simp only [member_bind, broker_setting]
  simp only [hsetting, reduceIte, String.reduceEq]
  show _ = (fun c : Connection => { c with host }) <$> _
  simp only [map_bind, map_pure]

/-- The port is the one that is set; else it goes by whether the connection is encrypted. -/
theorem ofBroker_port {c : Connection} (h : ofBroker broker tls = .ok c) :
    c.useTls = (tls || ((mapping broker).setting "tls" (.bool false)).truth) ∧
      ((mapping broker).setting "port" (.int (defaultPort c.useTls))).toInt? = .ok c.port := by
  unfold ofBroker ofConfig at h
  simp only [member_bind, broker_setting] at h
  obtain ⟨port, hport, h⟩ := Settings.ok_of_bind h
  obtain ⟨keepAlive, -, h⟩ := Settings.ok_of_bind h
  obtain ⟨topic, -, h⟩ := Settings.ok_of_bind h
  obtain ⟨message, -, h⟩ := Settings.ok_of_bind h
  obtain ⟨level, -, h⟩ := Settings.ok_of_bind h
  obtain ⟨qos, -, h⟩ := Settings.ok_of_bind h
  obtain ⟨retain, -, h⟩ := Settings.ok_of_bind h
  obtain ⟨protocol, -, h⟩ := Settings.ok_of_bind h
  obtain rfl := Except.ok.inj h
  exact ⟨rfl, hport⟩

end Connection

namespace Settings

variable {payload : List UInt8} {entries entries' broker broker' : List (Value × Value)}
  {tls tls' : Bool} {f : Connection → Connection}

theorem mapError_map {ε ε' α β : Type} (x : Except ε α) (f : α → β) (h : ε → ε') :
    (x.map f).mapError h = (x.mapError h).map f := by
  cases x <;> rfl

/-- Configurations that differ in the section of the broker alone have settings that differ in the
connection alone. -/
theorem ofConfig_map_connection
    (hother : ∀ key fallback, key ≠ "mqtt" →
      (mapping entries').setting key fallback = (mapping entries).setting key fallback)
    (hconnection : Connection.ofConfig (.mapping entries') tls' =
      (Connection.ofConfig (.mapping entries) tls).map f) :
    ofConfig payload (.mapping entries') tls' =
      (ofConfig payload (.mapping entries) tls).map fun s =>
        { s with connection := f s.connection } := by
  have hlimit : limitOf (.mapping entries') = limitOf (.mapping entries) := by
    rw [limitOf, limitOf, members_bind, members_bind, hother _ _ (by decide)]
  have hpatience : Patience.ofConfig (.mapping entries') =
      Patience.ofConfig (.mapping entries) := by
    rw [Patience.ofConfig, Patience.ofConfig, member_bind, member_bind, hother _ _ (by decide)]
  have hlift : lift ((Connection.ofConfig (.mapping entries) tls).map f) =
      f <$> lift (Connection.ofConfig (.mapping entries) tls) := mapError_map ..
  have hread : read payload (.mapping entries') tls' =
      (fun s : Settings => { s with connection := f s.connection }) <$>
        read payload (.mapping entries) tls := by
    simp only [read, lift_bind, members_bind, map_bind, map_pure]
    rw [hlimit, hpatience, hconnection, hlift, hother _ _ (by decide), hother _ _ (by decide)]
    simp only [bind_map_left]
  rw [ofConfig, hread, ofConfig, ← mapError_map]
  rfl

theorem connection_of_ofConfig {s : Settings}
    (h : ofConfig payload (.mapping entries) tls = .ok s) :
    Connection.ofConfig (.mapping entries) tls = .ok s.connection := by
  have hread : read payload (.mapping entries) tls = .ok s := ok_of_mapError h
  obtain ⟨chunker, -, hread⟩ := ok_of_bind hread
  obtain ⟨limit, -, hread⟩ := ok_of_bind hread
  obtain ⟨topics, -, hread⟩ := ok_of_bind hread
  obtain ⟨connection, hconnection, hread⟩ := ok_of_bind hread
  obtain ⟨patience, -, hread⟩ := ok_of_bind hread
  obtain ⟨topic, -, hread⟩ := ok_of_bind hread
  obtain rfl := Except.ok.inj hread
  exact ok_of_mapError hconnection

def withBroker (entries broker : List (Value × Value)) : List (Value × Value) :=
  insert entries (.str Program.brokerSection) (.mapping broker)

theorem ofConfig_withBroker
    (h : (mapping entries).setting Program.brokerSection (.mapping []) = .mapping broker)
    (hbroker : Connection.ofBroker broker' tls' = (Connection.ofBroker broker tls).map f) :
    ofConfig payload (.mapping (withBroker entries broker')) tls' =
      (ofConfig payload (.mapping entries) tls).map fun s =>
        { s with connection := f s.connection } := by
  have hsetting := setting_insert entries Program.brokerSection (.mapping broker')
  refine ofConfig_map_connection (fun key fallback hkey => ?_) ?_
  · exact (hsetting key fallback).trans (if_neg hkey.symm)
  · rw [Connection.ofConfig_eq_ofBroker h, ← hbroker]
    exact Connection.ofConfig_eq_ofBroker ((hsetting "mqtt" (.mapping [])).trans (if_pos rfl))

theorem withHost_eq (host : String)
    (h : (mapping entries).setting Program.brokerSection (.mapping []) = .mapping broker) :
    Program.withHost (.mapping entries) host =
      .ok (.mapping (withBroker entries (insert broker (.str "host") (.str host)))) := by
  rw [Program.withHost, member_bind, h]
  rfl

theorem configure_host {arguments : CommandLine.Arguments} {host : String}
    (hhost : arguments.host = some host) (hne : host ≠ "") (loaded : Value) :
    Program.configure arguments (.ok loaded) =
      (Program.withHost loaded host).mapError fun m => .escaped (.host m) := by
  unfold Program.configure
  rw [hhost]
  dsimp only [Except.mapError, bind, Except.bind]
  split
  · next hnone => cases hnone
  · next hempty => exact absurd (Option.some.inj hempty) hne
  · next named _ hnamed => rw [Option.some.inj hnamed]

/-- The command line and the configuration select encryption and the host to the same effect, for
any configuration whose section of the broker is a mapping or missing. The switch for encryption
gives the settings or the error that the setting for it gives; the host of the command line gives
those of the configuration, with that host. A port that is set counts, and else the port goes by
whether the connection is encrypted, in whichever way that was selected. -/
theorem overrides_agree (payload : List UInt8) (entries broker : List (Value × Value))
    (h : (mapping entries).setting Program.brokerSection (.mapping []) = .mapping broker) :
    ofConfig payload (.mapping entries) true =
        ofConfig payload
          (.mapping (withBroker entries (insert broker (.str "tls") (.bool true)))) false ∧
      (∀ (arguments : CommandLine.Arguments) (host : String),
        arguments.host = some host → host ≠ "" →
          ∃ config, Program.configure arguments (.ok (.mapping entries)) = .ok config ∧
            ofConfig payload config arguments.tls =
              (ofConfig payload (.mapping entries) arguments.tls).map fun s =>
                { s with connection := { s.connection with host := .str host } }) ∧
      ∀ (tls : Bool) (s : Settings), ofConfig payload (.mapping entries) tls = .ok s →
        s.connection.useTls = (tls || ((mapping broker).setting "tls" (.bool false)).truth) ∧
        (member? broker "port" = none →
          s.connection.port = if s.connection.useTls then 8883 else 1883) ∧
        ∀ v, member? broker "port" = some v → v.toInt? = .ok s.connection.port := by
  refine ⟨?_, ?_, ?_⟩
  · have htls : Connection.ofBroker (insert broker (.str "tls") (.bool true)) false =
        (Connection.ofBroker broker true).map id :=
      Connection.ofBroker_tls.trans (id_map (Connection.ofBroker broker true)).symm
    rw [ofConfig_withBroker h htls]
    cases ofConfig payload (.mapping entries) true <;> rfl
  · intro arguments host hhost hne
    refine ⟨_, ?_, ofConfig_withBroker h (Connection.ofBroker_host (.str host))⟩
    rw [configure_host hhost hne, withHost_eq host h]
    rfl
  · intro tls s hs
    have hconnection := connection_of_ofConfig hs
    rw [Connection.ofConfig_eq_ofBroker h] at hconnection
    obtain ⟨htls, hport⟩ := Connection.ofBroker_port hconnection
    refine ⟨htls, fun hnone => ?_, fun v hv => ?_⟩
    · rw [setting, hnone] at hport
      exact (Except.ok.inj hport).symm
    · rw [setting, hv] at hport
      exact hport

/-- Any text but the empty one encrypts the connection, and a host is put where there is none. -/
theorem overridden_broker :
    let broker : List (Value × Value) := [(.str "tls", .str "no")]
    let config := mapping [(.str "mqtt", .mapping broker)]
    config.setting Program.brokerSection (.mapping []) = .mapping broker ∧
      ∃ overridden s,
        Program.configure { host := some "broker" } (.ok config) = .ok overridden ∧
        ofConfig [1, 2, 3] overridden false = .ok s ∧ s.connection.host = .str "broker" ∧
        s.connection.useTls = true ∧ s.connection.port = 8883 := by
  intro broker config
  obtain ⟨-, hhost, hport⟩ := overrides_agree [1, 2, 3] [(.str "mqtt", .mapping broker)] broker rfl
  obtain ⟨overridden, hoverridden, hsettings⟩ := hhost { host := some "broker" } _ rfl (by decide)
  have hread : ∃ s, ofConfig [1, 2, 3] config false = .ok s := ⟨_, rfl⟩
  obtain ⟨s, hs⟩ := hread
  obtain ⟨htls, hdefault, -⟩ := hport false s hs
  have hencrypted : s.connection.useTls = true := htls
  let s' : Settings := { s with connection := { s.connection with host := .str "broker" } }
  refine ⟨rfl, overridden, s', hoverridden, ?_, rfl, hencrypted, ?_⟩
  · exact hsettings.trans (congrArg (Except.map _) hs)
  · exact (hdefault rfl).trans (if_pos hencrypted)

end Settings

end BrokerTrial
