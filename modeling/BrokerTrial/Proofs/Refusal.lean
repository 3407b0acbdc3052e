import BrokerTrial.Transport.Operation
import Mathlib.Tactic

/-! Answers to a subscription. A code below 128 grants its topic; the subscription is confirmed
exactly if every code that is paired with a topic does (`refusedTopics_eq_nil_iff`), and an answer
can be read if its codes are numbers (`refusedTopics_isOk`). -/

namespace BrokerTrial

/-- The codes of an answer; an empty one has none. -/
def Suback.codes? (granted : Suback) : Except Value.Misuse (List SubackCode) :=
  if granted.truth then granted.elements else .ok []

/-- Every topic that is paired with a code has been granted. -/
def Subscription.Granted (topics : Subscription) (granted : Suback) : Prop :=
  ∃ codes, granted.codes? = .ok codes ∧
    ∀ p ∈ topics.zip codes, ∃ code, p.2.value.toInt? = .ok code ∧ code < 128

def Suback.Carries (granted : Suback) (codes : List Int) : Prop :=
  ∃ own, granted.codes? = .ok own ∧
    List.Forall₂ (fun c code => c.value.toInt? = .ok code) own codes

def Suback.Readable (granted : Suback) : Prop := ∃ codes, granted.Carries codes

/-- The topics that codes refuse, in the order of the request. -/
def Subscription.refused (topics : Subscription) (codes : List Int) : List String :=
  ((topics.zip codes).filter fun p => 128 ≤ p.2).map (·.1.1)

namespace Transport

section FilterM

variable {α ε : Type} {p : α → Except ε Bool}

theorem filterAuxM_eq_nil_iff (as acc : List α) :
    as.filterAuxM p acc = .ok [] ↔ acc = [] ∧ ∀ a ∈ as, p a = .ok false := by
  induction as generalizing acc with
  | nil => simp [List.filterAuxM, pure, Except.pure]
  | cons a rest ih =>
    rw [List.filterAuxM]
    cases hp : p a with
    | error e => simp [bind, Except.bind, hp]
    | ok b => cases b <;> simp [bind, Except.bind, ih, hp]

theorem filterM_eq_nil_iff (as : List α) : as.filterM p = .ok [] ↔ ∀ a ∈ as, p a = .ok false := by
  have h := filterAuxM_eq_nil_iff (p := p) as []
  rw [List.filterM]
  cases hf : as.filterAuxM p [] with
  | error e =>
    rw [hf] at h
    simpa [bind, Except.bind] using h
  | ok kept =>
    rw [hf] at h
    simpa [bind, Except.bind, pure, Except.pure] using h

theorem filterAuxM_eq_ok {q : α → Bool} (as acc : List α) (h : ∀ a ∈ as, p a = .ok (q a)) :
    as.filterAuxM p acc = .ok ((as.filter q).reverse ++ acc) := by
  induction as generalizing acc with
  | nil => rfl
  | cons a rest ih =>
    have hrest := ih (bif q a then a :: acc else acc) fun b hb => h b (List.mem_cons_of_mem a hb)
    rw [List.filterAuxM, h a List.mem_cons_self]
    refine hrest.trans ?_
    cases hq : q a <;> simp [hq]

theorem filterM_eq_ok {q : α → Bool} (as : List α) (h : ∀ a ∈ as, p a = .ok (q a)) :
    as.filterM p = .ok (as.filter q) := by
  rw [List.filterM, filterAuxM_eq_ok as [] h]
  simp [bind, Except.bind, pure, Except.pure]

end FilterM

theorem refuses_eq_false_iff (c : SubackCode) :
    refuses c = .ok false ↔ ∃ code, c.value.toInt? = .ok code ∧ code < 128 := by
  unfold refuses refusal
  cases c.value.toInt? <;> simp [bind, Except.bind, pure, Except.pure]

theorem refusedTopics_eq (topics : Subscription) (granted : Suback) :
    refusedTopics topics granted = granted.codes?.bind fun codes =>
      ((topics.zip codes).filterM fun p => refuses p.2).map fun pairs => pairs.map (·.1.1) := by
  have hpure (codes : List SubackCode) :
      (do
        let pairs ← (topics.zip codes).filterM fun p => refuses p.2
        return pairs.map (·.1.1)) =
      ((topics.zip codes).filterM fun p => refuses p.2).map fun pairs => pairs.map (·.1.1) := by
    cases (topics.zip codes).filterM fun p => refuses p.2 <;> rfl
  unfold refusedTopics Suback.codes?
  simp only [hpure]
  split_ifs
  · rfl
  · rfl

theorem refusedTopics_eq_nil_iff (topics : Subscription) (granted : Suback) :
    refusedTopics topics granted = .ok [] ↔ topics.Granted granted := by
  have hfilter (codes : List SubackCode) :
      (topics.zip codes).filterM (fun p => refuses p.2) = .ok [] ↔
        ∀ p ∈ topics.zip codes, ∃ code, p.2.value.toInt? = .ok code ∧ code < 128 := by
    rw [filterM_eq_nil_iff]
    exact forall₂_congr fun p _ => refuses_eq_false_iff p.2
  rw [refusedTopics_eq, Subscription.Granted]
  cases granted.codes? with
  | error m => simp [Except.bind]
  | ok codes =>
    simp only [Except.bind, Except.ok.injEq, exists_eq_left', ← hfilter]
    cases (topics.zip codes).filterM fun p => refuses p.2 <;> simp [Except.map]

def refusing (c : SubackCode) : Bool := (refuses c).toOption = some true

theorem refuses_of_toInt? {c : SubackCode} {code : Int} (h : c.value.toInt? = .ok code) :
    refuses c = .ok (128 ≤ code) := by
  rw [refuses, h]
  rfl

theorem refusing_eq {c : SubackCode} {code : Int} (h : c.value.toInt? = .ok code) :
    refusing c = decide (128 ≤ code) := by
  simp [refusing, refuses_of_toInt? h, Except.toOption]

theorem filter_refusing (topics : Subscription) {own : List SubackCode} {codes : List Int}
    (h : List.Forall₂ (fun c code => c.value.toInt? = .ok code) own codes) :
    ((topics.zip own).filter fun p => refusing p.2).map (·.1.1) = topics.refused codes := by
  induction h generalizing topics with
  | nil => simp [Subscription.refused]
  | cons hcode _ ih =>
    cases topics with
    | nil => rfl
    | cons topic rest =>
      have hrest := ih rest
      unfold Subscription.refused at hrest ⊢
      simp only [List.zip_cons_cons, List.filter_cons, refusing_eq hcode]
      split_ifs <;> simp [hrest]

/-- The topics that are refused if the codes of the answer are numbers. -/
theorem refusedTopics_of_carries (topics : Subscription) {granted : Suback} {codes : List Int}
    (h : granted.Carries codes) : refusedTopics topics granted = .ok (topics.refused codes) := by
  obtain ⟨own, hown, hcodes⟩ := h
  have hread : ∀ c ∈ own, ∃ code, c.value.toInt? = .ok code :=
    ((List.forall₂_and_left own codes).1 (hcodes.imp fun c code h => ⟨⟨code, h⟩, h⟩)).1
  have hrefuses : ∀ p ∈ topics.zip own, refuses p.2 = .ok (refusing p.2) := by
    rintro ⟨topic, c⟩ hp
    obtain ⟨code, hcode⟩ := hread c (List.of_mem_zip hp).2
    rw [refuses_of_toInt? hcode, refusing_eq hcode]
  rw [refusedTopics_eq, hown, Except.bind, filterM_eq_ok _ hrefuses]
  exact congrArg Except.ok (filter_refusing topics hcodes)

theorem refusedTopics_isOk (topics : Subscription) {granted : Suback} (h : granted.Readable) :
    ∃ refused, refusedTopics topics granted = .ok refused :=
  ⟨_, refusedTopics_of_carries topics h.choose_spec⟩

end Transport

end BrokerTrial
