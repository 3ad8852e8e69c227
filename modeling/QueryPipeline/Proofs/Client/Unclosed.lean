import Mathlib.Data.List.Induction
import QueryPipeline.Proofs.Client.Runs

namespace QueryPipeline

/-! Which of the connections that a run opens are closed again.  A connection that does not
answer stays in hand, and the next one that is opened takes its place. -/

namespace Client

def Call.opens : Call → Bool
  | .create _ => true
  | _ => false

def Call.closes : Call → Bool
  | .close => true
  | _ => false

def through (kind : Call → Bool) (log : List Sent) : List Connection :=
  (log.filter (kind ·.call)).map Sent.connection

def unclosed (log : List Sent) : List Connection :=
  (through Call.opens log).filter (· ∉ through Call.closes log)

def log (client : Client) (steps : List Step) : List Sent :=
  (client.run steps).flatMap Outcome.sent

def Attempt.opens : Attempt → Bool
  | .refused _ => false
  | .silent _ => true
  | .answered => true

/-- The connection in hand, where an attempt puts another in its place. -/
def abandons (client : Client) (attempt : Attempt) : List Connection :=
  if client.connected || !attempt.opens then [] else client.connection.toList

def Step.abandons (client : Client) : Step → List Connection
  | .connect attempt => client.abandons attempt
  | .connectTwice first second =>
      client.abandons first ++ (client.connect first).client.abandons second
  | _ => []

def abandoned (client : Client) : List Step → List Connection
  | [] => []
  | first :: rest => first.abandons client ++ (client.step first).client.abandoned rest

/-- In the course of `past` the connections `replaced` gave way to others.  What is unclosed is
these and the one in hand, each once, and the next one to be opened is none of those before. -/
structure Accounted (client : Client) (past : List Sent) (replaced : List Connection) : Prop where
  unclosed_eq : unclosed past = replaced ++ client.connection.toList
  nodup : (replaced ++ client.connection.toList).Nodup
  serial_lt : ∀ sent ∈ past, sent.connection.serial < client.opened

variable {client : Client}

@[simp] theorem log_nil (client : Client) : client.log [] = [] := rfl

@[simp] theorem log_cons (client : Client) (first : Step) (rest : List Step) :
    client.log (first :: rest) =
      (client.step first).sent ++ (client.step first).client.log rest := rfl

theorem abandoned_append (client : Client) (front back : List Step) :
    client.abandoned (front ++ back) =
      client.abandoned front ++ (client.after front).abandoned back := by
  induction front generalizing client with
  | nil => rfl
  | cons first rest ih =>
      rw [List.cons_append, abandoned, abandoned, ih, after_cons, List.append_assoc]

theorem through_append (kind : Call → Bool) (front back : List Sent) :
    through kind (front ++ back) = through kind front ++ through kind back := by
  rw [through, List.filter_append, List.map_append, through, through]

theorem through_eq_nil {kind : Call → Bool} {log : List Sent}
    (h : ∀ sent ∈ log, kind sent.call = false) : through kind log = [] := by
  rw [through, List.map_eq_nil_iff, List.filter_eq_nil_iff]
  exact fun sent hsent => Bool.eq_false_iff.mp (h sent hsent)

theorem exists_of_mem_through {kind : Call → Bool} {log : List Sent} {connection : Connection}
    (h : connection ∈ through kind log) : ∃ sent ∈ log, sent.connection = connection := by
  obtain ⟨sent, hsent, heq⟩ := List.mem_map.mp h
  exact ⟨sent, List.mem_of_mem_filter hsent, heq⟩

theorem unclosed_append {past sent : List Sent} (hopens : through Call.opens sent = [])
    (hcloses : through Call.closes sent = []) : unclosed (past ++ sent) = unclosed past := by
  rw [unclosed, through_append, through_append, hopens, hcloses, List.append_nil,
    List.append_nil, unclosed]

theorem unclosed_append_opening {past : List Sent}
    (hfresh : ∀ sent ∈ past, sent.connection ≠ client.fresh) :
    unclosed (past ++ client.opening) = unclosed past ++ [client.fresh] := by
  have hkept : client.fresh ∉ through Call.closes past := by
    intro hmem
    obtain ⟨sent, hsent, heq⟩ := exists_of_mem_through hmem
    exact hfresh sent hsent heq
  have hopens : through Call.opens client.opening = [client.fresh] := rfl
  have hcloses : through Call.closes client.opening = [] := rfl
  rw [unclosed, through_append, through_append, hopens, hcloses, List.append_nil,
    List.filter_append, unclosed]
  simp [hkept]

theorem unclosed_append_closing (past : List Sent) (closing : List Connection) :
    unclosed (past ++ closing.map (⟨·, .close⟩)) = (unclosed past).filter (· ∉ closing) := by
  have hopens : through Call.opens (closing.map (⟨·, .close⟩)) = [] := by
    simp [through, Call.opens]
  have hcloses : through Call.closes (closing.map (⟨·, .close⟩)) = closing := by
    simp [through, Call.closes, List.filter_map, Function.comp_def]
  rw [unclosed, through_append, through_append, hopens, hcloses, List.append_nil, unclosed,
    List.filter_filter]
  apply List.filter_congr
  simp [and_comm]

theorem Queried.of_mem_sent {outcome : Outcome} (h : client.Queried outcome) {sent : Sent}
    (hmem : sent ∈ outcome.sent) :
    client.connection = some sent.connection ∧
      sent.call.opens = false ∧ sent.call.closes = false := by
  rcases h.cases with ⟨hnone, -⟩ | ⟨connection, collection, pipeline, database, hhand, hone⟩
  · rw [hnone] at hmem
    cases hmem
  · rw [hone, List.mem_singleton] at hmem
    subst hmem
    exact ⟨hhand, rfl, rfl⟩

theorem query_abandons {step : Step} (hquery : step.isQuery = true) :
    step.abandons client = [] := by
  cases step with
  | connect => cases hquery
  | connectTwice => cases hquery
  | _ => rfl

/-- What an attempt to connect can do: nothing, or open a connection that takes the place of
the one in hand. -/
theorem connect_cases (client : Client) (attempt : Attempt) :
    ((client.connect attempt).client = client ∧ (client.connect attempt).sent = [] ∧
      client.abandons attempt = []) ∨
    ((client.connect attempt).client.connection = some client.fresh ∧
      (client.connect attempt).client.opened = client.opened + 1 ∧
      (client.connect attempt).sent = client.opening ∧
      client.abandons attempt = client.connection.toList) := by
  rw [abandons, connect.eq_def]
  cases hguard : client.connected && client.holdsConnection with
  | true =>
      have hconnected : client.connected = true := (Bool.and_eq_true_iff.mp hguard).1
      exact .inl ⟨rfl, rfl, by rw [hconnected]; rfl⟩
  | false =>
      cases attempt with
      | refused message => exact .inl ⟨rfl, rfl, by simp [Attempt.opens]⟩
      | _ =>
          refine .inr ⟨rfl, rfl, rfl, ?_⟩
          cases hconnected : client.connected with
          | false => rfl
          | true =>
              rw [hconnected, Bool.true_and, holdsConnection] at hguard
              rw [Option.not_isSome_iff_eq_none.mp (Bool.eq_false_iff.mp hguard)]
              rfl

theorem accounted_create (uri database : Option String) :
    (create uri database).Accounted [] [] :=
  ⟨rfl, List.nodup_nil, nofun⟩

namespace Accounted

variable {past : List Sent} {replaced : List Connection}

theorem serial_lt_of_mem (h : client.Accounted past replaced) {connection : Connection}
    (hmem : connection ∈ replaced ++ client.connection.toList) :
    connection.serial < client.opened := by
  rw [← h.unclosed_eq, unclosed] at hmem
  obtain ⟨sent, hsent, rfl⟩ := exists_of_mem_through (List.mem_of_mem_filter hmem)
  exact h.serial_lt sent hsent

theorem fresh_ne (h : client.Accounted past replaced) :
    client.connection ≠ some client.fresh := by
  intro hhand
  have hmem : client.fresh ∈ replaced ++ client.connection.toList := by simp [hhand]
  exact Nat.lt_irrefl _ (h.serial_lt_of_mem hmem)

theorem connect (h : client.Accounted past replaced) (attempt : Attempt) :
    (client.connect attempt).client.Accounted (past ++ (client.connect attempt).sent)
      (replaced ++ client.abandons attempt) := by
  rcases client.connect_cases attempt with
    ⟨hclient, hsent, habandons⟩ | ⟨hconnection, hopened, hsent, habandons⟩
  · rwa [hclient, hsent, habandons, List.append_nil, List.append_nil]
  · rw [hsent, habandons]
    refine ⟨?_, ?_, ?_⟩
    · rw [hconnection, unclosed_append_opening, h.unclosed_eq]
      · rfl
      · rintro sent hmem heq
        have hlt := h.serial_lt sent hmem
        rw [heq] at hlt
        exact Nat.lt_irrefl _ hlt
    · rw [hconnection, Option.toList_some, List.nodup_append]
      refine ⟨h.nodup, List.nodup_singleton _, ?_⟩
      rintro connection hmem _ hfresh rfl
      cases List.mem_singleton.mp hfresh
      exact Nat.lt_irrefl _ (h.serial_lt_of_mem hmem)
    · rw [hopened]
      intro sent hmem
      rcases List.mem_append.mp hmem with hpast | hopening
      · exact Nat.lt_succ_of_lt (h.serial_lt sent hpast)
      · simp only [opening, List.mem_cons, List.not_mem_nil, or_false] at hopening
        rcases hopening with rfl | rfl <;> exact Nat.lt_succ_self _

theorem disconnect (h : client.Accounted past replaced) :
    client.disconnect.client.Accounted (past ++ client.disconnect.sent) replaced := by
  obtain ⟨hreplaced, -, hdisjoint⟩ := List.nodup_append.mp h.nodup
  refine ⟨?_, ?_, ?_⟩
  · have hkept : replaced.filter (· ∉ client.connection.toList) = replaced :=
      List.filter_eq_self.mpr fun connection hmem =>
        decide_eq_true fun hhand => hdisjoint connection hmem connection hhand rfl
    have hclosed : client.connection.toList.filter (· ∉ client.connection.toList) = [] :=
      List.filter_eq_nil_iff.mpr fun connection hmem => by simpa using hmem
    rw [Client.disconnect, unclosed_append_closing, h.unclosed_eq, List.filter_append, hkept,
      hclosed]
    rfl
  · simpa [Client.disconnect] using hreplaced
  · intro sent hmem
    rcases List.mem_append.mp hmem with hpast | hsent
    · exact h.serial_lt sent hpast
    · obtain ⟨connection, hhand, rfl⟩ := List.mem_map.mp hsent
      exact h.serial_lt_of_mem (List.mem_append_right replaced hhand)

theorem query (h : client.Accounted past replaced) {outcome : Outcome}
    (hquery : client.Queried outcome) :
    outcome.client.Accounted (past ++ outcome.sent) replaced := by
  rw [hquery.client_eq]
  refine ⟨?_, h.nodup, ?_⟩
  · rw [unclosed_append, h.unclosed_eq]
    · exact through_eq_nil fun sent hsent => (hquery.of_mem_sent hsent).2.1
    · exact through_eq_nil fun sent hsent => (hquery.of_mem_sent hsent).2.2
  · intro sent hmem
    rcases List.mem_append.mp hmem with hpast | hsent
    · exact h.serial_lt sent hpast
    · apply h.serial_lt_of_mem
      rw [(hquery.of_mem_sent hsent).1]
      simp

theorem step (h : client.Accounted past replaced) (step : Step) :
    (client.step step).client.Accounted (past ++ (client.step step).sent)
      (replaced ++ step.abandons client) := by
  rcases step.kinds with ⟨attempt, rfl⟩ | ⟨first, second, rfl⟩ | rfl | hquery
  · exact h.connect attempt
  · simpa [Client.step, connectTwice, Step.abandons] using (h.connect first).connect second
  · simpa [Client.step, Step.abandons] using h.disconnect
  · rw [query_abandons hquery, List.append_nil]
    exact h.query (client.queried_step hquery)

theorem run (h : client.Accounted past replaced) (steps : List Step) :
    (client.after steps).Accounted (past ++ client.log steps)
      (replaced ++ client.abandoned steps) := by
  induction steps generalizing client past replaced with
  | nil => simpa [abandoned] using h
  | cons first rest ih =>
      rw [after_cons, log_cons, abandoned, ← List.append_assoc, ← List.append_assoc]
      exact ih (h.step first)

end Accounted

variable {uri database : Option String}

theorem accounted_run (uri database : Option String) (steps : List Step) :
    ((create uri database).after steps).Accounted ((create uri database).log steps)
      ((create uri database).abandoned steps) :=
  (accounted_create uri database).run steps

theorem connect_holds (client : Client) {attempt : Attempt}
    (h : client.abandons attempt ≠ [] ∨ client.connection.isSome = true) :
    (client.connect attempt).client.connection.isSome = true := by
  rcases client.connect_cases attempt with ⟨hclient, -, hnil⟩ | ⟨hconnection, -, -, -⟩
  · rw [hclient]
    exact h.resolve_left (absurd hnil)
  · rw [hconnection]
    rfl

theorem step_holds {step : Step} (h : step.abandons client ≠ []) :
    (client.step step).client.connection.isSome = true := by
  cases step with
  | connect attempt => exact client.connect_holds (.inl h)
  | connectTwice first second =>
      apply connect_holds
      by_cases hsecond : (client.connect first).client.abandons second = []
      · right
        apply connect_holds
        left
        rwa [Step.abandons, hsecond, List.append_nil] at h
      · exact .inl hsecond
  | _ => exact absurd rfl h

theorem abandoned_eq_nil_of_length_le_one {steps : List Step}
    (h : ∀ front, front <+: steps → (unclosed ((create uri database).log front)).length ≤ 1) :
    (create uri database).abandoned steps = [] := by
  -- by induction on the run from its end: the last step would be the first to replace one
  induction steps using List.reverseRecOn with
  | nil => rfl
  | append_singleton front last ih =>
      have hfront := ih fun earlier hearlier =>
        h earlier (List.IsPrefix.trans hearlier (List.prefix_append _ _))
      have hlength := h (front ++ [last]) (List.prefix_refl _)
      rw [(accounted_run uri database (front ++ [last])).unclosed_eq] at hlength
      rw [abandoned_append, hfront, List.nil_append, abandoned, abandoned, List.append_nil]
        at hlength ⊢
      by_contra hne
      have hholds := step_holds hne
      rw [after_append, after_cons, after_nil] at hlength
      obtain ⟨connection, hconnection⟩ := Option.isSome_iff_exists.mp hholds
      have hpos := List.length_pos_iff.mpr hne
      rw [hconnection, List.length_append, Option.toList_some, List.length_singleton] at hlength
      omega

theorem unclosed_length_le_one_iff (steps : List Step) :
    (∀ front, front <+: steps → (unclosed ((create uri database).log front)).length ≤ 1) ↔
      (create uri database).abandoned steps = [] := by
  refine ⟨abandoned_eq_nil_of_length_le_one, ?_⟩
  rintro h front ⟨back, rfl⟩
  rw [abandoned_append] at h
  rw [(accounted_run uri database front).unclosed_eq, (List.append_eq_nil_iff.mp h).1,
    List.nil_append]
  exact Option.length_toList_le

theorem connected_eq_false_of_error (h : client.Coherent uri database) {attempt : Attempt}
    {fault : Fault} (hfails : (client.connect attempt).result = .error fault) :
    client.connected = false := by
  cases hconnected : client.connected with
  | false => rfl
  | true =>
      rw [connect_connected hconnected (h.holds hconnected)] at hfails
      cases hfails

/-- Where no connection could be opened, a failed attempt leaves all as it was.  A connection
that does not answer takes the place of the one in hand.  Queries reach the store through it,
and a further attempt replaces it, unclosed, by another. -/
theorem failed_connect_undone_iff (uri database : Option String) (steps : List Step) :
    let client := (create uri database).after steps
    (∀ attempt fault, (client.step (.connect attempt)).result = .error fault →
      let outcome := client.step (.connect attempt)
      ((outcome.client.connection, outcome.client.connected) =
        (client.connection, client.connected) ↔ attempt.opens = false) ∧
      (unclosed outcome.sent = [] ↔ attempt.opens = false) ∧
      (client.connection = none → ∀ collection pipeline database reply,
        let query := outcome.client.step (.aggregate collection pipeline database reply)
        (query.sent = [] ∧ query.result = .error .notInitialized ↔ attempt.opens = false))) ∧
    unclosed ((create uri database).log steps) =
      (create uri database).abandoned steps ++ client.connection.toList ∧
    ((∀ front, front <+: steps → (unclosed ((create uri database).log front)).length ≤ 1) ↔
      (create uri database).abandoned steps = []) := by
  intro client
  have haccounted := accounted_run uri database steps
  have hcoherent : client.Coherent uri database := (coherent_create uri database).after steps
  refine ⟨?_, haccounted.unclosed_eq, unclosed_length_le_one_iff steps⟩
  intro attempt fault hfails
  have hconnected := connected_eq_false_of_error hcoherent hfails
  cases attempt with
  | refused message =>
      rw [step, connect_refused hconnected]
      refine ⟨iff_of_true rfl rfl, iff_of_true rfl rfl, ?_⟩
      intro hempty collection pipeline database reply
      rw [step, aggregate_refused hempty]
      exact iff_of_true ⟨rfl, rfl⟩ rfl
  | silent message =>
      have hopens : ¬(Attempt.silent message).opens = false := by simp [Attempt.opens]
      rw [step, connect_silent hconnected]
      refine ⟨iff_of_false ?_ hopens, iff_of_false ?_ hopens, ?_⟩
      · intro hsame
        exact haccounted.fresh_ne (Prod.mk.inj hsame).1.symm
      · rw [← List.nil_append client.opening, unclosed_append_opening
          fun _ hmem => absurd hmem List.not_mem_nil]
        exact List.cons_ne_nil _ _
      · intro _ collection pipeline database reply
        exact iff_of_false (fun hrefused => List.cons_ne_nil _ _ hrefused.1) hopens
  | answered =>
      rw [step, connect_answered hconnected] at hfails
      cases hfails

theorem failed_connect_undone_iff_refused :
    let client := (create none none).after [.connect (.silent "no answer"), .disconnect]
    let outcome := client.step (.connect (.refused "no such host"))
    client.connection = none ∧
    outcome.result = .error (.connection "no such host") ∧
    (outcome.client.connection, outcome.client.connected) =
      (client.connection, client.connected) ∧
    unclosed outcome.sent = [] ∧
    (outcome.client.step (.aggregate "posts" (.list []) none (.ok (.list [])))).sent = [] ∧
    (unclosed ((create none none).log
      [.connect (.silent "no answer"), .disconnect])).length ≤ 1 := by
  obtain ⟨hfailed, -, hone⟩ := failed_connect_undone_iff none none
    [.connect (.silent "no answer"), .disconnect]
  obtain ⟨hsame, hclosed, hquery⟩ := hfailed (.refused "no such host") _ rfl
  exact ⟨rfl, rfl, hsame.mpr rfl, hclosed.mpr rfl, ((hquery rfl _ _ _ _).mpr rfl).1,
    hone.mpr rfl _ (List.prefix_refl _)⟩

/-- A first attempt that is not answered leaves its connection in hand and unclosed, the next
aggregation goes through it, and a second attempt opens another beside it. -/
theorem silent_connect_left_open :
    let client := create none none
    let outcome := client.step (.connect (.silent "no answer"))
    let query := outcome.client.step (.aggregate "posts" (.list []) none (.ok (.list [])))
    outcome.result = .error (.connection "no answer") ∧
    (outcome.client.connection, outcome.client.connected) ≠
      (client.connection, client.connected) ∧
    unclosed outcome.sent = [⟨0⟩] ∧
    query.result = .ok (.list []) ∧ query.sent.length = 1 ∧
    unclosed (client.log [.connect (.silent "no answer"), .connect (.silent "no answer")]) =
      [⟨0⟩, ⟨1⟩] := by
  refine ⟨rfl, ?_, rfl, rfl, rfl, ?_⟩
  · decide
  · decide

end Client

end QueryPipeline
