import QueryPipeline.Client
import QueryPipeline.Proofs.Aggregation.Parts

namespace QueryPipeline

/-! The runs of one client.  Only connecting and disconnecting change what is in hand, and a
query goes through what is in hand or nowhere. -/

theorem listing_of_locate {registry : Registry} {collection : CollectionRef} {handle : Collection}
    (h : registry.locate collection = .ok handle) (query : Query) :
    listing registry (.resolved handle) query = listing registry collection query := by
  rw [listing, listing, h]
  rfl

theorem Association.pipeline_of_locate {association : Association} {registry : Registry}
    {owner : Collection} (h : registry.locate association.owner = .ok owner) (query : Query) :
    { association with owner := .resolved owner }.pipeline registry query =
      association.pipeline registry query := by
  rw [pipeline, pipeline, h]
  rfl

namespace Client

def Step.isConnect : Step → Bool
  | .connect _ => true
  | .connectTwice _ _ => true
  | _ => false

def Step.isQuery : Step → Bool
  | .aggregate _ _ _ _ => true
  | .listDocuments _ _ _ _ => true
  | .listAssociated _ _ _ _ => true
  | _ => false

def after (client : Client) (steps : List Step) : Client :=
  ((client.run steps).getLast?.map Outcome.client).getD client

/-- A query that compiles is put to the store through the connection in hand, once; where one
of the two is missing, the store is not asked. -/
structure AsksOnce (client : Client) (collection : Except QueryPipeline.Fault Collection)
    (pipeline : Except QueryPipeline.Fault Pipeline) (outcome : Outcome) : Prop where
  client_eq : outcome.client = client
  length_le : outcome.sent.length ≤ 1
  mem_iff : ∀ sent, sent ∈ outcome.sent ↔ ∃ connection handle compiled,
    client.connection = some connection ∧ collection = .ok handle ∧ pipeline = .ok compiled ∧
      sent = ⟨connection, .aggregate client.database handle.physicalName compiled.toValue⟩
  refuses : ∀ fault, pipeline = .error fault →
    outcome.sent = [] ∧ ∃ cause, outcome.result = .error (.query cause)

variable {client : Client}

@[simp] theorem after_nil (client : Client) : client.after [] = client := rfl

@[simp] theorem after_cons (client : Client) (first : Step) (rest : List Step) :
    client.after (first :: rest) = (client.step first).client.after rest := by
  rw [after, after, run, List.getLast?_cons]
  cases ((client.step first).client.run rest).getLast? <;> rfl

theorem after_append (client : Client) (front back : List Step) :
    client.after (front ++ back) = (client.after front).after back := by
  induction front generalizing client with
  | nil => rfl
  | cons first rest ih => rw [List.cons_append, after_cons, after_cons, ih]

theorem after_induction {motive : Client → Prop} (start : motive client) {steps : List Step}
    (next : ∀ client, ∀ step ∈ steps, motive client → motive (client.step step).client) :
    motive (client.after steps) := by
  induction steps generalizing client with
  | nil => exact start
  | cons first rest ih =>
      rw [after_cons]
      exact ih (next client first List.mem_cons_self start)
        fun client step hstep => next client step (List.mem_cons_of_mem first hstep)

def Outcome.Refused (outcome : Outcome) : Prop :=
  outcome.sent = [] ∧ ∃ fault, outcome.result = .error fault

/-- What a query can come to: it is refused, or one call goes through the connection in hand. -/
structure Queried (client : Client) (outcome : Outcome) : Prop where
  client_eq : outcome.client = client
  cases : outcome.Refused ∨ ∃ connection collection pipeline database,
    client.connection = some connection ∧
      outcome.sent = [⟨connection, client.aggregateCall collection pipeline database⟩]

theorem aggregate_refused (h : client.connection = none) (collection : String)
    (pipeline : Value) (database : Option String) (reply : Reply) :
    client.aggregate collection pipeline database reply =
      ⟨client, [], .error .notInitialized⟩ := by
  rw [aggregate, h]

theorem queried_aggregate (client : Client) (collection : String) (pipeline : Value)
    (database : Option String) (reply : Reply) :
    client.Queried (client.aggregate collection pipeline database reply) := by
  cases h : client.connection with
  | none =>
      rw [aggregate_refused h]
      exact ⟨rfl, .inl ⟨rfl, _, rfl⟩⟩
  | some connection =>
      rw [aggregate, h]
      exact ⟨rfl, .inr ⟨connection, collection, pipeline, database, h, rfl⟩⟩

theorem queried_runPage (client : Client)
    (compiled : Except QueryPipeline.Fault (Collection × Pipeline)) (reply : Reply) :
    client.Queried (client.runPage compiled reply) := by
  cases compiled with
  | error cause => exact ⟨rfl, .inl ⟨rfl, _, rfl⟩⟩
  | ok compiled =>
      obtain ⟨hclient, ⟨hsent, fault, hfault⟩ | hasked⟩ := client.queried_aggregate
        compiled.1.physicalName compiled.2.toValue none reply
      · refine ⟨hclient, .inl ⟨hsent, fault, ?_⟩⟩
        rw [runPage, hfault]
        rfl
      · exact ⟨hclient, .inr hasked⟩

theorem queried_step (client : Client) {step : Step} (h : step.isQuery = true) :
    client.Queried (client.step step) := by
  cases step with
  | aggregate collection pipeline database reply =>
      exact client.queried_aggregate collection pipeline database reply
  | listDocuments registry collection query reply => exact client.queried_runPage _ reply
  | listAssociated registry association query reply => exact client.queried_runPage _ reply
  | _ => cases h

theorem Queried.refused {outcome : Outcome} (h : client.Queried outcome)
    (hnone : client.connection = none) : outcome.Refused := by
  refine h.cases.resolve_right ?_
  rintro ⟨connection, _, _, _, hsome, _⟩
  rw [hnone] at hsome
  cases hsome

theorem asksOnce_runPage {collection : Except QueryPipeline.Fault Collection}
    {pipeline : Except QueryPipeline.Fault Pipeline}
    {compiled : Except QueryPipeline.Fault (Collection × Pipeline)}
    (hcompiled : ∀ found, compiled = .ok found ↔
      collection = .ok found.1 ∧ pipeline = .ok found.2) (reply : Reply) :
    AsksOnce client collection pipeline (client.runPage compiled reply) where
  client_eq := (client.queried_runPage compiled reply).client_eq
  length_le := by
    cases compiled with
    | error cause => exact Nat.zero_le 1
    | ok found =>
        rw [runPage, aggregate]
        cases client.connection with
        | none => exact Nat.zero_le 1
        | some connection => exact Nat.le_refl 1
  mem_iff := by
    intro sent
    cases compiled with
    | error cause =>
        refine ⟨fun hsent => absurd hsent List.not_mem_nil, ?_⟩
        rintro ⟨_, handle, pipeline, _, hhandle, hpipeline, _⟩
        cases (hcompiled (handle, pipeline)).mpr ⟨hhandle, hpipeline⟩
    | ok found =>
        obtain ⟨hcollection, hpipeline⟩ := (hcompiled found).mp rfl
        rw [runPage, aggregate, hcollection, hpipeline]
        cases client.connection with
        | none => simp
        | some connection => simp [aggregateCall, eq_comm]
  refuses := by
    intro fault hfault
    cases compiled with
    | error cause => exact ⟨rfl, cause, rfl⟩
    | ok found =>
        rw [((hcompiled found).mp rfl).2] at hfault
        cases hfault

theorem asksOnce_listDocuments (registry : Registry) (collection : CollectionRef) (query : Query)
    (reply : Reply) :
    AsksOnce client (registry.locate collection) (listing registry collection query)
      (client.listDocuments registry collection query reply) := by
  apply asksOnce_runPage
  intro found
  exact bind_pair_eq_ok_iff fun _ hlocated => listing_of_locate hlocated query

theorem asksOnce_listAssociated (registry : Registry) (association : Association) (query : Query)
    (reply : Reply) :
    AsksOnce client (registry.locate association.owner) (association.pipeline registry query)
      (client.listAssociated registry association query reply) := by
  apply asksOnce_runPage
  intro found
  exact bind_pair_eq_ok_iff fun _ hlocated => Association.pipeline_of_locate hlocated query

theorem connect_connected (h : client.connected = true)
    (hholds : client.connection.isSome = true) (attempt : Attempt) :
    client.connect attempt = ⟨client, [], .ok .null⟩ := by
  rw [connect.eq_def, holdsConnection, h, hholds]
  rfl

theorem connect_refused (h : client.connected = false) (message : String) :
    client.connect (.refused message) = ⟨client, [], .error (.connection message)⟩ := by
  rw [connect.eq_def, h]
  rfl

theorem connect_silent (h : client.connected = false) (message : String) :
    client.connect (.silent message) =
      ⟨client.holding, client.opening, .error (.connection message)⟩ := by
  rw [connect.eq_def, h]
  rfl

theorem connect_answered (h : client.connected = false) :
    client.connect .answered =
      ⟨{ client.holding with connected := true }, client.opening, .ok .null⟩ := by
  rw [connect.eq_def, h]
  rfl

theorem Step.kinds (step : Step) :
    (∃ attempt, step = .connect attempt) ∨
      (∃ first second, step = .connectTwice first second) ∨
      step = .disconnect ∨ step.isQuery = true := by
  cases step with
  | connect attempt => exact .inl ⟨attempt, rfl⟩
  | connectTwice first second => exact .inr (.inl ⟨first, second, rfl⟩)
  | disconnect => exact .inr (.inr (.inl rfl))
  | _ => exact .inr (.inr (.inr rfl))

/-- A client that says it is connected has a connection in hand.  What it connects to and
where it looks are as they were given. -/
structure Coherent (uri database : Option String) (client : Client) : Prop where
  uri_eq : client.uri = uri
  database_eq : client.database = database
  holds : client.connected = true → client.connection.isSome = true

variable {uri database : Option String}

theorem coherent_create (uri database : Option String) :
    (create uri database).Coherent uri database :=
  ⟨rfl, rfl, nofun⟩

theorem Coherent.connect (h : client.Coherent uri database) (attempt : Attempt) :
    (client.connect attempt).client.Coherent uri database := by
  cases hconnected : client.connected with
  | true => rwa [connect_connected hconnected (h.holds hconnected)]
  | false =>
      cases attempt with
      | refused message => rwa [connect_refused hconnected]
      | silent message =>
          rw [connect_silent hconnected]
          exact ⟨h.uri_eq, h.database_eq, fun _ => rfl⟩
      | answered =>
          rw [connect_answered hconnected]
          exact ⟨h.uri_eq, h.database_eq, fun _ => rfl⟩

theorem Coherent.step (h : client.Coherent uri database) (step : Step) :
    (client.step step).client.Coherent uri database := by
  rcases step.kinds with ⟨attempt, rfl⟩ | ⟨first, second, rfl⟩ | rfl | hquery
  · exact h.connect attempt
  · exact (h.connect first).connect second
  · exact ⟨h.uri_eq, h.database_eq, nofun⟩
  · rwa [(client.queried_step hquery).client_eq]

theorem Coherent.after (h : client.Coherent uri database) (steps : List Step) :
    (client.after steps).Coherent uri database :=
  after_induction h fun _ step _ h => h.step step

theorem step_connection_eq_none {step : Step} (h : client.connection = none)
    (hstep : step.isConnect = false) : (client.step step).client.connection = none := by
  rcases step.kinds with ⟨attempt, rfl⟩ | ⟨first, second, rfl⟩ | rfl | hquery
  · cases hstep
  · cases hstep
  · rfl
  · rwa [(client.queried_step hquery).client_eq]

theorem connect_step_connected {step : Step} (h : client.connected = true)
    (hholds : client.connection.isSome = true) (hstep : step.isConnect = true) :
    (client.step step).client = client ∧ (client.step step).sent = [] := by
  have hconnect := connect_connected h hholds
  cases step with
  | connect attempt => simp only [Client.step, hconnect, and_self]
  | connectTwice first second =>
      simp only [Client.step, connectTwice, hconnect, List.append_nil, and_self]
  | _ => cases hstep

theorem run_invariant (uri database : Option String) (steps : List Step) :
    let client := (create uri database).after steps
    (client.connected = true → client.connection.isSome = true) ∧
    (client.connected = true → ∀ step, step.isConnect = true →
      (client.step step).client = client ∧ (client.step step).sent = []) ∧
    (∀ step, step.isQuery = true → (client.step step).client = client) ∧
    (client.uri = uri ∧ client.database = database) ∧
    (∀ registry collection query reply,
      AsksOnce client (registry.locate collection) (listing registry collection query)
        (client.step (.listDocuments registry collection query reply))) ∧
    (∀ registry association query reply,
      AsksOnce client (registry.locate association.owner) (association.pipeline registry query)
        (client.step (.listAssociated registry association query reply))) ∧
    ∀ between, (∀ step ∈ between, step.isConnect = false) → ∀ step, step.isQuery = true →
      (((client.step .disconnect).client.after between).step step).Refused := by
  intro client
  have hcoherent : client.Coherent uri database := (coherent_create uri database).after steps
  refine ⟨hcoherent.holds, ?_, ?_, ⟨hcoherent.uri_eq, hcoherent.database_eq⟩, ?_, ?_, ?_⟩
  · exact fun hconnected step hstep =>
      connect_step_connected hconnected (hcoherent.holds hconnected) hstep
  · exact fun step hstep => (client.queried_step hstep).client_eq
  · exact asksOnce_listDocuments
  · exact asksOnce_listAssociated
  · intro between hbetween step hstep
    have hempty : ((client.step .disconnect).client.after between).connection = none :=
      after_induction (motive := fun client => client.connection = none) rfl
        fun _ step hmem h => step_connection_eq_none h (hbetween step hmem)
    exact (queried_step _ hstep).refused hempty

theorem run_invariant_second_attempt :
    let client := (create none (some "campus")).after
      [.connect (.silent "no answer"), .connect .answered]
    let listing := client.step (.listDocuments .school (.named "Enrollment") (Entries.ofList [])
      (.ok (.list [])))
    client.connected = true ∧ client.connection.isSome = true ∧
    (client.step (.connectTwice .answered .answered)).sent = [] ∧
    listing.client = client ∧
    ⟨⟨1⟩, .aggregate (some "campus") "enrollments" (Pipeline.toValue [.facet []])⟩ ∈
      listing.sent ∧
    (((client.step .disconnect).client.after
        [.aggregate "enrollments" (.list []) none (.error "no server")]).step
      (.listAssociated .school .courses (Entries.ofList []) (.ok (.list [])))).Refused := by
  obtain ⟨hholds, hconnect, hquery, _, hlisting, _, hrefused⟩ :=
    run_invariant none (some "campus") [.connect (.silent "no answer"), .connect .answered]
  refine ⟨rfl, hholds rfl, (hconnect rfl _ rfl).2, hquery _ rfl, ?_, hrefused _ ?_ _ rfl⟩
  · exact ((hlisting _ _ _ _).mem_iff _).mpr ⟨⟨1⟩, _, _, rfl, rfl, rfl, rfl⟩
  · exact fun step hstep => by cases List.mem_singleton.mp hstep; rfl

end Client

end QueryPipeline
