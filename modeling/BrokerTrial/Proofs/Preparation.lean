import BrokerTrial.Proofs.Overriding

/-! From the command line to a configuration. What is loaded is the configuration that a file holds
(`load_eq_ok_iff`), and the host of the command line changes no more than the host in it
(`Rehosted.of_insert`). So the program comes to a configuration or to an exit, unless the loader
reads bytes that are no text, or the section of the broker that the host goes to is no mapping
(`prepared_iff`). -/

namespace BrokerTrial

def Value.others (entries : List (Value × Value)) (key : String) : List (Value × Value) :=
  entries.filter fun e => !e.1.sameKey (.str key)

theorem Value.others_insert (entries : List (Value × Value)) (key : String) (x : Value) :
    others (insert entries (.str key) x) key = others entries key := by
  induction entries with
  | nil => simp [insert, others, sameKey_str]
  | cons e rest ih =>
    rw [insert]
    unfold others at ih ⊢
    cases hkey : e.1.sameKey (.str key) with
    | true => simp [hkey]
    | false => simp [hkey, ih]

namespace Source

variable {loader : Loader} {path : String} {found : Found} {entries : List (Value × Value)}
  {config : Value}

/-- If a file is found, the loader comes to a result of its own: the file is a text, or the loader
does not have to read on behind one of the pieces in front of the bytes that are none. -/
def Found.Answered (loader : Loader) : Found → Prop
  | .file bytes => (∃ text, Text.Utf8.decode bytes = .ok text) ∨
      ∃ front, front <+: (loader.reading bytes).pieces ∧ loader.early? (String.join front) ≠ none
  | _ => True

/-- If a file is found, the loader takes it for a value or for malformed, unless it is no text. -/
def Found.Readable (loader : Loader) : Found → Prop
  | .file bytes => ∀ e, loader.load bytes = .error (.yaml e) → e.isMalformed = true
  | _ => True

/-- What is found is a configuration. No file, and a value that counts as false, are empty ones. -/
def Found.Holds (loader : Loader) : Found → List (Value × Value) → Prop
  | .nothing, entries => entries = []
  | .directory, _ => False
  | .file bytes, entries => ∃ v, loader.load bytes = .ok v ∧
      (v = .mapping entries ∨ v.truth = false ∧ entries = [])

theorem orEmpty_eq_mapping_iff {v : Value} :
    orEmpty v = .mapping entries ↔ v = .mapping entries ∨ v.truth = false ∧ entries = [] := by
  unfold orEmpty
  cases htruth : v.truth with
  | true => simp
  | false =>
    have hempty : v = .mapping entries → entries = [] := by
      rintro rfl
      simpa [Value.truth] using htruth
    simp only [Bool.false_eq_true, if_false, Value.mapping.injEq, true_and]
    exact ⟨fun h => .inr h.symm, fun h => (h.elim hempty id).symm⟩

/-- The bytes that are no text are met if nothing in front of them makes the loader stop. -/
theorem Loader.resume_undecodable_iff (l : Loader) (fault : Option Text.Utf8.Error)
    (seen : String) (pieces : List String) :
    (∃ e, l.resume fault seen pieces = .error (.undecodable e)) ↔
      fault.isSome ∧ ∀ front, front <+: pieces → l.early? (seen ++ String.join front) = none := by
  have hown (result : Except Yaml.Error Value) (e : Text.Utf8.Error) :
      result.mapError Error.yaml ≠ .error (.undecodable e) := by
    cases result <;> simp [Except.mapError]
  induction pieces generalizing seen with
  | nil =>
    cases hearly : l.early? seen <;> cases fault <;> simp [resume, hearly, hown]
  | cons piece rest ih =>
    cases hearly : l.early? seen with
    | some result =>
      refine iff_of_false (by simp [resume, hearly, hown]) fun h => ?_
      have hnone := h.2 [] List.nil_prefix
      simp [hearly] at hnone
    | none =>
      have hresume : l.resume fault seen (piece :: rest) =
          l.resume fault (seen ++ piece) rest := by
        rw [resume, hearly]
      rw [hresume]
      refine (ih (seen ++ piece)).trans (and_congr_right fun _ => ⟨?_, ?_⟩) <;> intro h front hfront
      · rcases List.prefix_cons_iff.1 hfront with rfl | ⟨shorter, rfl, hshorter⟩
        · simpa using hearly
        · simpa [String.append_assoc] using h shorter hshorter
      · have hnone := h (piece :: front) (List.cons_prefix_cons.2 ⟨rfl, hfront⟩)
        simpa [String.append_assoc] using hnone

/-- A loader that never stops in front of the end. -/
theorem Loader.resume_of_patient {l : Loader} (h : ∀ s, l.early? s = none)
    (fault : Option Text.Utf8.Error) (seen : String) (pieces : List String) :
    l.resume fault seen pieces =
      match fault with
      | some e => .error (.undecodable e)
      | none => (l.whole (seen ++ String.join pieces)).mapError .yaml := by
  induction pieces generalizing seen with
  | nil => cases fault <;> simp [resume, h]
  | cons piece rest ih =>
    rw [resume, h]
    simpa [String.append_assoc] using ih (seen ++ piece)

theorem Loader.usual_load (bytes : List UInt8) : usual.load bytes =
    match Text.Utf8.decode bytes with
    | .ok text => (Yaml.read (String.ofList (lineFeeds text.toList))).mapError .yaml
    | .error e => .error (.undecodable e) := by
  rw [load, resume_of_patient fun _ => rfl]
  cases hdecode : Text.Utf8.decode bytes with
  | ok text =>
    obtain ⟨hfault, hjoin⟩ := (usual.reading bytes).of_text hdecode
    rw [hfault, hjoin, String.empty_append]
    rfl
  | error e =>
    have hfault : (usual.reading bytes).fault = some e := by simp [usual, Reading.atOnce, hdecode]
    rw [hfault]

theorem load_undecodable_iff {bytes : List UInt8} :
    (∃ e, loader.load bytes = .error (.undecodable e)) ↔ ¬ (Found.file bytes).Answered loader := by
  have hfault : (loader.reading bytes).fault.isSome = true ↔
      ¬ ∃ text, Text.Utf8.decode bytes = .ok text := by
    cases hdecode : Text.Utf8.decode bytes with
    | error e => simpa using (loader.reading bytes).of_fault hdecode
    | ok text => simp [((loader.reading bytes).of_text hdecode).1]
  rw [Loader.load, Loader.resume_undecodable_iff, hfault, Found.Answered]
  simp

theorem load_eq_ok_iff :
    (load loader path found).result = .ok config ↔
      ∃ entries, found.Holds loader entries ∧ config = .mapping entries := by
  cases found with
  | nothing => simp [load, Found.Holds, eq_comm]
  | directory => simp [load, Found.Holds]
  | file bytes =>
    simp only [load, loadFile, Found.Holds, ← orEmpty_eq_mapping_iff]
    rcases loader.load bytes with (e | e) | v
    · simp
    · dsimp only
      split_ifs <;> simp
    · dsimp only
      cases horEmpty : orEmpty v <;> simp [horEmpty, eq_comm]

theorem Found.Holds.answered (h : found.Holds loader entries) : found.Answered loader := by
  cases found with
  | nothing => trivial
  | directory => trivial
  | file bytes =>
    obtain ⟨v, hload, -⟩ := h
    by_contra hnone
    obtain ⟨e, he⟩ := load_undecodable_iff.2 hnone
    cases hload.symm.trans he

theorem Found.Holds.unique {entries' : List (Value × Value)} (h : found.Holds loader entries)
    (h' : found.Holds loader entries') : entries' = entries := by
  have hload : (load loader "" found).result = .ok (.mapping entries) :=
    load_eq_ok_iff.2 ⟨entries, h, rfl⟩
  rw [load_eq_ok_iff.2 ⟨entries', h', rfl⟩] at hload
  exact Value.mapping.inj (Except.ok.inj hload)

/-- A file whose bytes are no text lets an error through, if the loader reads up to them. -/
theorem load_undecodable (path : String) (h : ¬ found.Answered loader) :
    ∃ e, (load loader path found).result = .error (.undecodable e) := by
  cases found with
  | nothing => exact absurd trivial h
  | directory => exact absurd trivial h
  | file bytes =>
    obtain ⟨e, he⟩ := load_undecodable_iff.2 h
    refine ⟨e, ?_⟩
    rw [load, loadFile, he]

theorem load_refused (path : String) (hanswered : found.Answered loader)
    (hreadable : found.Readable loader) (hnone : ∀ entries, ¬ found.Holds loader entries) :
    ∃ r, (load loader path found).result = .error (.refused r) := by
  cases found with
  | nothing => exact absurd rfl (hnone [])
  | directory => exact ⟨_, rfl⟩
  | file bytes =>
    rw [load, loadFile]
    cases hload : loader.load bytes with
    | error e =>
      cases e with
      | undecodable e => exact absurd hanswered (load_undecodable_iff.1 ⟨e, hload⟩)
      | yaml e =>
        dsimp only
        rw [if_pos (hreadable e hload)]
        exact ⟨_, rfl⟩
    | ok v =>
      dsimp only
      cases hv : orEmpty v with
      | mapping entries => exact absurd ⟨v, hload, orEmpty_eq_mapping_iff.1 hv⟩ (hnone entries)
      | _ => exact ⟨_, rfl⟩

end Source

namespace Program

variable {loader : Source.Loader} {arguments : CommandLine.Arguments} {look : String → Source.Found}
  {script : Script} {signals : List Trial.Signal}

/-- What the program has got when it has read its configuration. -/
def handed (loader : Source.Loader) (arguments : CommandLine.Arguments)
    (look : String → Source.Found) : Except Stop Value :=
  configure arguments (Source.load loader (configPath arguments) (configFile arguments look)).result

def Report.ofConfig (arguments : CommandLine.Arguments) (config : Value) (script : Script)
    (signals : List Trial.Signal) : Report :=
  .ofSettings ((Settings.ofConfig payload config arguments.tls).mapError Stop.ofSettings) script
    signals

theorem run_eq (loader : Source.Loader) (arguments : CommandLine.Arguments)
    (look : String → Source.Found) (script : Script) (signals : List Trial.Signal) :
    let settings := handed loader arguments look >>= fun config =>
      (Settings.ofConfig payload config arguments.tls).mapError Stop.ofSettings
    let report := Report.ofSettings settings script signals
    let loading := greeting arguments :: (prepare loader arguments look).2
    run loader arguments look script signals =
      { report with entries := Log.atLeast (leastLevel arguments) (loading ++ report.entries) } :=
  rfl

theorem run_of_ok {config : Value} (h : handed loader arguments look = .ok config) :
    let report := Report.ofConfig arguments config script signals
    (run loader arguments look script signals).ending = report.ending ∧
      (run loader arguments look script signals).trial = report.trial := by
  rw [run_eq, h]
  exact ⟨rfl, rfl⟩

theorem run_of_refused {message : String}
    (h : handed loader arguments look = .error (.refused message)) :
    (run loader arguments look script signals).ending = .exited 1 ∧
      (run loader arguments look script signals).trial = none ∧
      Log.error message ∈ (run loader arguments look script signals).entries := by
  rw [run_eq, h]
  refine ⟨rfl, rfl, List.mem_filter.2 ⟨List.mem_append_right _ (List.mem_singleton_self _), ?_⟩⟩
  cases hdebug : arguments.debug <;> simp [leastLevel, hdebug, Log.error, Log.Level.rank]

theorem run_of_escaped {e : Escape} (h : handed loader arguments look = .error (.escaped e)) :
    (run loader arguments look script signals).ending = .escaped e ∧
      (run loader arguments look script signals).trial = none := by
  rw [run_eq, h]
  exact ⟨rfl, rfl⟩

section Handed

variable {loaded entries : List (Value × Value)} {host : String}

def Names (arguments : CommandLine.Arguments) (host : String) : Prop :=
  arguments.host = some host ∧ host ≠ ""

/-- The section of the broker is a mapping or missing, if a host is to go to it. -/
def Placeable (arguments : CommandLine.Arguments) (loaded : List (Value × Value)) : Prop :=
  ∀ host, Names arguments host →
    ∃ broker, (Value.mapping loaded).setting brokerSection (.mapping []) = .mapping broker

/-- A configuration with a host in it, which is another one in all else the same. -/
structure Rehosted (loaded entries : List (Value × Value)) (host : String) : Prop where
  others_eq : Value.others entries brokerSection = Value.others loaded brokerSection
  exists_broker : ∃ broker broker',
    (Value.mapping loaded).setting brokerSection (.mapping []) = .mapping broker ∧
      Value.member? entries brokerSection = some (.mapping broker') ∧
      Value.others broker' "host" = Value.others broker "host" ∧
      Value.member? broker' "host" = some (.str host)

/-- A configuration with the host that the command line names, if it names one. -/
def Hosted (arguments : CommandLine.Arguments) (loaded entries : List (Value × Value)) : Prop :=
  (∀ host, ¬ Names arguments host) ∧ entries = loaded ∨
    ∃ host, Names arguments host ∧ Rehosted loaded entries host

theorem Rehosted.of_insert {broker : List (Value × Value)}
    (h : (Value.mapping loaded).setting brokerSection (.mapping []) = .mapping broker)
    (host : String) :
    Rehosted loaded
      (Settings.withBroker loaded (Value.insert broker (.str "host") (.str host))) host :=
  ⟨Value.others_insert .., broker, Value.insert broker (.str "host") (.str host), h,
    (Value.member?_insert ..).trans (if_pos rfl), Value.others_insert ..,
    (Value.member?_insert ..).trans (if_pos rfl)⟩

theorem configure_unnamed (h : ∀ host, ¬ Names arguments host) (config : Value) :
    configure arguments (.ok config) = .ok config := by
  unfold configure
  dsimp only [Except.mapError, bind, Except.bind]
  split
  · rfl
  · rfl
  · next host hne hhost => exact absurd ⟨hhost, hne⟩ (h host)

theorem configure_named {broker : List (Value × Value)} (hnames : Names arguments host)
    (h : (Value.mapping loaded).setting brokerSection (.mapping []) = .mapping broker) :
    ∃ entries, configure arguments (.ok (.mapping loaded)) = .ok (.mapping entries) ∧
      Rehosted loaded entries host := by
  rw [Settings.configure_host hnames.1 hnames.2, Settings.withHost_eq host h]
  exact ⟨_, rfl, .of_insert h host⟩

/-- A host does not go to a section that is no mapping. -/
theorem configure_misnamed (hnames : Names arguments host)
    (h : ∀ broker, (Value.mapping loaded).setting brokerSection (.mapping []) ≠ .mapping broker) :
    ∃ m, configure arguments (.ok (.mapping loaded)) = .error (.escaped (.host m)) := by
  have hwithHost : ∃ m, withHost (.mapping loaded) host = .error m := by
    rw [withHost, Value.member_bind]
    cases hv : (Value.mapping loaded).setting brokerSection (.mapping []) with
    | mapping broker => exact absurd hv (h broker)
    | _ => exact ⟨_, rfl⟩
  obtain ⟨m, hm⟩ := hwithHost
  rw [Settings.configure_host hnames.1 hnames.2, hm]
  exact ⟨m, rfl⟩

theorem configure_cases (arguments : CommandLine.Arguments) (loaded : List (Value × Value)) :
    (Placeable arguments loaded ∧
      ∃ entries, configure arguments (.ok (.mapping loaded)) = .ok (.mapping entries) ∧
        Hosted arguments loaded entries) ∨
    (¬ Placeable arguments loaded ∧
      ∃ m, configure arguments (.ok (.mapping loaded)) = .error (.escaped (.host m))) := by
  by_cases hnamed : ∃ host, Names arguments host
  · obtain ⟨host, hnames⟩ := hnamed
    by_cases hbroker : ∃ broker,
        (Value.mapping loaded).setting brokerSection (.mapping []) = .mapping broker
    · obtain ⟨broker, h⟩ := hbroker
      obtain ⟨entries, hentries, hrehosted⟩ := configure_named hnames h
      exact .inl ⟨fun _ _ => ⟨broker, h⟩, entries, hentries, .inr ⟨host, hnames, hrehosted⟩⟩
    · have hnone := not_exists.1 hbroker
      exact .inr ⟨fun h => hbroker (h host hnames), configure_misnamed hnames hnone⟩
  · have hnone := not_exists.1 hnamed
    exact .inl ⟨fun host hnames => absurd hnames (hnone host), loaded, configure_unnamed hnone _,
      .inl ⟨hnone, rfl⟩⟩

theorem handed_of_holds (h : (configFile arguments look).Holds loader loaded) :
    handed loader arguments look = configure arguments (.ok (.mapping loaded)) := by
  rw [handed, Source.load_eq_ok_iff.2 ⟨loaded, h, rfl⟩]

theorem handed_cases (hreadable : (configFile arguments look).Readable loader) :
    (¬ (configFile arguments look).Answered loader ∧
      ∃ e, handed loader arguments look = .error (.escaped (.source (.undecodable e)))) ∨
    ((configFile arguments look).Answered loader ∧
      (∀ loaded, ¬ (configFile arguments look).Holds loader loaded) ∧
      ∃ message, handed loader arguments look = .error (.refused message)) ∨
    ∃ loaded, (configFile arguments look).Holds loader loaded ∧
      handed loader arguments look = configure arguments (.ok (.mapping loaded)) := by
  by_cases hholds : ∃ loaded, (configFile arguments look).Holds loader loaded
  · obtain ⟨loaded, h⟩ := hholds
    exact .inr (.inr ⟨loaded, h, handed_of_holds h⟩)
  · by_cases hanswered : (configFile arguments look).Answered loader
    · have hnone := not_exists.1 hholds
      obtain ⟨r, hr⟩ := Source.load_refused (configPath arguments) hanswered hreadable hnone
      refine .inr (.inl ⟨hanswered, hnone, r.message, ?_⟩)
      rw [handed, hr]
      rfl
    · obtain ⟨e, he⟩ := Source.load_undecodable (configPath arguments) hanswered
      refine .inl ⟨hanswered, e, ?_⟩
      rw [handed, he]
      rfl

theorem hosted_of_handed {config : Value} (h : handed loader arguments look = .ok config) :
    ∃ loaded entries, (configFile arguments look).Holds loader loaded ∧ config = .mapping entries ∧
      Hosted arguments loaded entries := by
  unfold handed at h
  cases hload : (Source.load loader (configPath arguments) (configFile arguments look)).result with
  | error e =>
    rw [hload] at h
    cases h
  | ok v =>
    obtain ⟨loaded, hholds, rfl⟩ := Source.load_eq_ok_iff.1 hload
    rw [hload] at h
    obtain ⟨-, entries, hentries, hhosted⟩ | ⟨-, m, hm⟩ := configure_cases arguments loaded
    · rw [hentries] at h
      exact ⟨loaded, entries, hholds, (Except.ok.inj h).symm, hhosted⟩
    · rw [hm] at h
      cases h

/-- The program comes to a configuration or refuses the file, if and only if the loader comes to a
result before it reads bytes that are no text, and the host of the command line has a place in what
the file holds. The configuration is the loaded one with at most the host in it changed, and the
program goes on with it; a refusal is logged and ends the program with exit code 1. All else is an
error of the program. -/
theorem prepared_iff (loader : Source.Loader) (arguments : CommandLine.Arguments)
    (look : String → Source.Found) (script : Script) (signals : List Trial.Signal)
    (hreadable : (configFile arguments look).Readable loader) :
    let found := configFile arguments look
    let report := run loader arguments look script signals
    ((∃ config, handed loader arguments look = .ok config) ∨
        (∃ message, handed loader arguments look = .error (.refused message)) ↔
      found.Answered loader ∧ ∀ loaded, found.Holds loader loaded → Placeable arguments loaded) ∧
    (∀ config, handed loader arguments look = .ok config →
      report.ending = (Report.ofConfig arguments config script signals).ending ∧
      report.trial = (Report.ofConfig arguments config script signals).trial ∧
      ∃ loaded entries, found.Holds loader loaded ∧ config = .mapping entries ∧
        Hosted arguments loaded entries) ∧
    (∀ message, handed loader arguments look = .error (.refused message) →
      report.ending = .exited 1 ∧ report.trial = none ∧ Log.error message ∈ report.entries) ∧
    ∀ e, handed loader arguments look = .error (.escaped e) →
      report.ending = .escaped e ∧ report.trial = none := by
  intro found report
  refine ⟨?_, fun config h => ⟨(run_of_ok h).1, (run_of_ok h).2, hosted_of_handed h⟩,
    fun message => run_of_refused, fun e => run_of_escaped⟩
  obtain ⟨hanswered, e, he⟩ | ⟨hanswered, hnone, message, hmessage⟩ | ⟨loaded, hloaded, heq⟩ :=
    handed_cases hreadable
  · rw [he]
    refine iff_of_false ?_ fun h => hanswered h.1
    rintro (⟨_, h⟩ | ⟨_, h⟩) <;> cases h
  · exact iff_of_true (.inr ⟨message, hmessage⟩)
      ⟨hanswered, fun loaded h => absurd h (hnone loaded)⟩
  · rw [heq]
    obtain ⟨hplaceable, entries, hentries, -⟩ | ⟨hplaceable, m, hm⟩ :=
      configure_cases arguments loaded
    · refine iff_of_true (.inl ⟨_, hentries⟩) ⟨hloaded.answered, fun loaded' h => ?_⟩
      rwa [hloaded.unique h]
    · rw [hm]
      refine iff_of_false ?_ fun h => hplaceable (h.2 loaded hloaded)
      rintro (⟨_, h⟩ | ⟨_, h⟩) <;> cases h

/-- An empty file gets the host of the command line. -/
theorem prepared_empty_file :
    let loader := Source.Loader.usual
    let arguments : CommandLine.Arguments := { config := some "p.yaml", host := some "broker" }
    let look := fun _ => Source.Found.file []
    (configFile arguments look).Readable loader ∧
      ∃ entries, handed loader arguments look = .ok (.mapping entries) ∧
        Rehosted [] entries "broker" := by
  intro loader arguments look
  have hdecode : Text.Utf8.decode [] = .ok "" := by cbv
  have hload : loader.load [] = .ok .null := by
    rw [Source.Loader.usual_load, hdecode]
    rfl
  have hreadable : (configFile arguments look).Readable loader := by
    intro e he
    cases hload.symm.trans he
  have hholds : (configFile arguments look).Holds loader [] := ⟨.null, hload, .inr ⟨rfl, rfl⟩⟩
  have hplaceable : Placeable arguments [] := fun _ _ => ⟨[], rfl⟩
  obtain ⟨hiff, hgot, -⟩ := prepared_iff loader arguments look {} [] hreadable
  have hcomes := hiff.2 ⟨.inl ⟨"", hdecode⟩, fun loaded h => by rwa [hholds.unique h]⟩
  have hnames : Names arguments "broker" := ⟨rfl, by decide⟩
  obtain ⟨config, hconfig⟩ | ⟨message, hmessage⟩ := hcomes
  · obtain ⟨-, -, loaded, entries, hloaded, rfl, hhosted⟩ := hgot config hconfig
    obtain ⟨hunnamed, -⟩ | ⟨host, hhost, hrehosted⟩ := hhosted
    · exact absurd hnames (hunnamed _)
    · obtain rfl : "broker" = host := Option.some.inj hhost.1
      rw [hholds.unique hloaded] at hrehosted
      exact ⟨hreadable, entries, hconfig, hrehosted⟩
  · have hbroker : (Value.mapping []).setting brokerSection (.mapping []) = .mapping [] := rfl
    obtain ⟨entries, hentries, -⟩ := configure_named hnames hbroker
    rw [handed_of_holds hholds, hentries] at hmessage
    cases hmessage

/-- A file that is no text ends the program with an error, and so does a host that is to go to a
section that is no mapping. -/
theorem undecodable_file_escapes :
    let loader := Source.Loader.usual
    let look := fun _ => Source.Found.file [0xff, 0xff]
    let e := Escape.source (.undecodable ⟨.invalidStart, 0, [0xff]⟩)
    handed loader { config := some "p.yaml" } look = .error (.escaped e) ∧
      (run loader { config := some "p.yaml" } look {} []).ending = .escaped e ∧
      configure { host := some "broker" } (.ok (.mapping [(.str brokerSection, .null)])) =
        .error (.escaped (.host (.notMapping .null))) := by
  intro loader look e
  have hdecode : Text.Utf8.decode [0xff, 0xff] = .error ⟨.invalidStart, 0, [0xff]⟩ := by cbv
  have hload : loader.load [0xff, 0xff] = .error (.undecodable ⟨.invalidStart, 0, [0xff]⟩) := by
    rw [Source.Loader.usual_load, hdecode]
  have hhanded : handed loader { config := some "p.yaml" } look = .error (.escaped e) := by
    rw [handed]
    show configure _ (Source.loadFile loader _ [0xff, 0xff]).result = _
    rw [Source.loadFile, hload]
    rfl
  exact ⟨hhanded, (run_of_escaped hhanded).1, rfl⟩

end Handed

end Program

end BrokerTrial
