import Mathlib.Data.List.Basic
import ThriftBench.Lib.Machine

namespace ThriftBench.Web

open Lib

/-!
# REST proxy — `RESTProxyHandler::onRequest` over one shared transport

The handler keeps one transport for all requests.  `isOpen()` stays true after an outage of
the backend, and an exception of the call leaves `onRequest` without a `close()`, so the next
request finds the transport open over a connection that no longer exists.

* `stepProxy` — one request in its three parts, with outages of the backend between any two;
* `Effect` — what a step can do, from which everything below is derived;
* `Fresh` — a transport that is open is open since the last outage: kept by every step but an
  outage that finds the transport open;
* `Stale` — what such an outage leaves, and no later step repairs;
* `recovers_iff` — the outages from which the proxy recovers.
-/

/-- The handlers that share a transport. -/
inductive Service where
  /-- `HelloWorld` behind `echoservice-ttd`. -/
  | echoService
  /-- `Compute` behind `MLInfer/nonblocking` and `MLInfer/threadpool`. -/
  | mlInfer
  deriving DecidableEq, Repr

/-- The argument of `response.send(Http::Code::Ok, ..)`, for the reply `out` of the call. -/
def Service.text : Service → String → String
  | .echoService, out => out
  | .mlInfer, _       => "Finished Compute"

/-- Where `onRequest` stands. -/
inductive Phase where
  | idle
  /-- Before `isOpen()`; `startedUp` says whether the backend was up when it was called. -/
  | arrived (startedUp : Bool)
  /-- In the call of the client. -/
  | calling (startedUp : Bool)
  deriving DecidableEq, Repr

/-- A request whose `onRequest` has ended. -/
structure Handled where
  startedUp : Bool
  endedUp : Bool
  /-- The outages before its connection was opened, and the text sent; `none` after an
      exception. -/
  served : Option (Nat × String)
  /-- The outages before its end. -/
  outages : Nat
  deriving DecidableEq, Repr

structure Proxy where
  /-- The backend is up. -/
  up : Bool := true
  /-- The outages so far. -/
  outages : Nat := 0
  /-- Where it is open: the outages before `open()`. -/
  transport : Option Nat := none
  phase : Phase := .idle
  /-- The requests handled so far, the latest first. -/
  handled : List Handled := []
  deriving DecidableEq, Repr

inductive Action where
  | request
  /-- `if (!transport->isOpen()) transport->open();` -/
  | openTransport
  /-- The call of the client and what follows it; `out` is the backend's reply. -/
  | call (out : String)
  | outage
  | recover
  deriving DecidableEq, Repr

/-- `onRequest` ends. -/
def Proxy.finish (s : Proxy) (startedUp : Bool) (served : Option (Nat × String)) : Proxy :=
  { s with phase := .idle, handled := ⟨startedUp, s.up, served, s.outages⟩ :: s.handled }

def stepProxy (service : Service) (s : Proxy) : Action → Option Proxy
  | .request =>
    match s.phase with
    | .idle => some { s with phase := .arrived s.up }
    | _     => none
  | .openTransport =>
    match s.phase, s.transport with
    | .arrived startedUp, some _ => some { s with phase := .calling startedUp }
    | .arrived startedUp, none   =>
      if s.up = true then
        some { s with transport := some s.outages, phase := .calling startedUp }
      else
        -- `open()` throws and leaves the transport closed.
        some (s.finish startedUp none)
    | _, _ => none
  | .call out =>
    match s.phase, s.transport with
    | .calling startedUp, some c =>
      if s.up = true ∧ c = s.outages then
        some (s.finish startedUp (some (c, service.text out)))
      else
        -- The call throws; nothing on the way out closes the transport.
        some (s.finish startedUp none)
    | _, _ => none
  | .outage  => if s.up = true then some { s with up := false, outages := s.outages + 1 } else none
  | .recover => if s.up = true then none else some { s with up := true }

def proxy (service : Service) : Machine Proxy Action := ⟨stepProxy service⟩

/-- Every request that started and ended with the backend up was served over a connection
    opened after the last outage. -/
def Proxy.Recovers (s : Proxy) : Prop :=
  ∀ h ∈ s.handled, h.startedUp = true → h.endedUp = true →
    ∃ text, h.served = some (h.outages, text)

/-- An outage finds the transport closed. -/
def FindsClosed (s : Proxy) (a : Action) : Prop := a = .outage → s.transport = none

instance (s : Proxy) (a : Action) : Decidable (FindsClosed s a) :=
  inferInstanceAs (Decidable (_ → _))

/-! ### One step -/

/-- What a step does to the transport, to the outages and to the requests handled. -/
inductive Effect (s : Proxy) : Action → Proxy → Prop where
  | outage : Effect s .outage { s with up := false, outages := s.outages + 1 }
  /-- Only `phase` or `up` changes. -/
  | keeps {a : Action} (up : Bool) (phase : Phase) : a ≠ .outage →
      Effect s a { s with up := up, phase := phase }
  /-- `open()` succeeds. -/
  | opens (phase : Phase) : s.transport = none →
      Effect s .openTransport { s with transport := some s.outages, phase := phase }
  /-- `open()` throws. -/
  | throws (startedUp : Bool) : s.transport = none → s.up = false →
      Effect s .openTransport (s.finish startedUp none)
  /-- The call of the client ends. -/
  | ends {out : String} {c : Nat} {served : Option (Nat × String)} (startedUp : Bool) :
      s.transport = some c → (s.up = true → c = s.outages → ∃ text, served = some (c, text)) →
      Effect s (.call out) (s.finish startedUp served)

section

variable {service : Service} {s s' : Proxy} {a : Action}

/-- **Inversion.** Every step has one of these effects. -/
theorem stepProxy_effect (h : stepProxy service s a = some s') : Effect s a s' := by
  cases a with
  | request =>
    simp only [stepProxy] at h
    split at h
    · obtain rfl := Option.some.inj h
      exact .keeps s.up _ (by simp)
    · exact absurd h (by simp)
  | openTransport =>
    simp only [stepProxy] at h
    split at h
    · obtain rfl := Option.some.inj h
      exact .keeps s.up _ (by simp)
    · next hclosed =>
      split at h
      · obtain rfl := Option.some.inj h
        exact .opens _ hclosed
      · next hdown =>
        obtain rfl := Option.some.inj h
        exact .throws _ hclosed (Bool.eq_false_iff.mpr hdown)
    · exact absurd h (by simp)
  | call out =>
    simp only [stepProxy] at h
    split at h
    · next c hphase hopen =>
      split at h
      · obtain rfl := Option.some.inj h
        exact .ends _ hopen fun _ _ => ⟨_, rfl⟩
      · next hdead =>
        obtain rfl := Option.some.inj h
        exact .ends _ hopen fun hup hc => absurd ⟨hup, hc⟩ hdead
    · exact absurd h (by simp)
  | outage =>
    simp only [stepProxy] at h
    split at h
    · obtain rfl := Option.some.inj h
      exact .outage
    · exact absurd h (by simp)
  | recover =>
    simp only [stepProxy] at h
    split at h
    · exact absurd h (by simp)
    · obtain rfl := Option.some.inj h
      exact .keeps true s.phase (by simp)

/-! ### A transport that is open since the last outage -/

/-- A transport that is open was opened after the last outage, and the proxy recovered so
    far. -/
structure Fresh (s : Proxy) : Prop where
  connection : ∀ c, s.transport = some c → c = s.outages
  recovers : s.Recovers

/-- What ends a request and keeps the rest. -/
theorem Fresh.finish (h : Fresh s) {startedUp : Bool} {served : Option (Nat × String)}
    (hserved : s.up = true → ∃ text, served = some (s.outages, text)) :
    Fresh (s.finish startedUp served) where
  connection := h.connection
  recovers := by
    intro x hx hstarted hended
    rcases List.mem_cons.mp hx with rfl | hx
    · exact hserved hended
    · exact h.recovers x hx hstarted hended

/-- **Step lemma.** -/
theorem Fresh.step (h : Fresh s) (hclosed : FindsClosed s a)
    (hstep : stepProxy service s a = some s') : Fresh s' := by
  cases stepProxy_effect hstep with
  | outage =>
    refine ⟨fun c hc => ?_, h.recovers⟩
    -- The guard: there is no connection that the outage could break.
    have hnone : s.transport = none := hclosed rfl
    exact absurd (hnone.symm.trans hc) (by simp)
  | keeps up phase _ => exact ⟨h.connection, h.recovers⟩
  | opens phase _ =>
    refine ⟨fun c hc => ?_, h.recovers⟩
    exact (Option.some.inj hc).symm
  | throws startedUp _ hdown =>
    apply h.finish
    exact fun hup => absurd hup (Bool.eq_false_iff.mp hdown)
  | @ends out c served startedUp hopen hserved =>
    have hc : c = s.outages := h.connection c hopen
    apply h.finish
    intro hup
    rw [← hc]
    exact hserved hup hc

/-! ### A transport that an outage found open -/

/-- The connection was opened before the last outage. -/
def Stale (s : Proxy) : Prop := ∃ c, s.transport = some c ∧ c < s.outages

/-- The connection is not from the future. -/
def Past (s : Proxy) : Prop := ∀ c, s.transport = some c → c ≤ s.outages

theorem Past.step (h : Past s) (hstep : stepProxy service s a = some s') : Past s' := by
  intro c hc
  cases stepProxy_effect hstep with
  | outage => exact Nat.le_succ_of_le (h c hc)
  | keeps up phase _ => exact h c hc
  | opens phase _ => exact Nat.le_of_eq (Option.some.inj hc).symm
  | throws startedUp _ _ => exact h c hc
  | ends startedUp _ _ => exact h c hc

/-- Nothing opens the transport again. -/
theorem Stale.step (h : Stale s) (hstep : stepProxy service s a = some s') : Stale s' := by
  obtain ⟨c, hc, hlt⟩ := h
  cases stepProxy_effect hstep with
  | outage => exact ⟨c, hc, Nat.lt_succ_of_lt hlt⟩
  | keeps up phase _ => exact ⟨c, hc, hlt⟩
  | opens phase hclosed => exact absurd (hclosed.symm.trans hc) (by simp)
  | throws startedUp hclosed _ => exact absurd (hclosed.symm.trans hc) (by simp)
  | ends startedUp _ _ => exact ⟨c, hc, hlt⟩

/-- An outage that finds the transport open makes it stale. -/
theorem stale_of_not_findsClosed (h : Past s) (hopen : ¬ FindsClosed s a)
    (hstep : stepProxy service s a = some s') : Stale s' := by
  simp only [FindsClosed, Classical.not_imp] at hopen
  obtain ⟨rfl, hsome⟩ := hopen
  obtain ⟨c, hc⟩ := Option.ne_none_iff_exists'.mp hsome
  cases stepProxy_effect hstep with
  | outage => exact ⟨c, hc, Nat.lt_succ_of_le (h c hc)⟩
  | keeps up phase hnot => exact absurd rfl hnot

/-! ### A request on a stale transport -/

/-- The call throws, and leaves the transport as it was. -/
theorem Stale.call (service : Service) (h : Stale s) {startedUp : Bool}
    (hphase : s.phase = .calling startedUp) (out : String) :
    stepProxy service s (.call out) = some (s.finish startedUp none) := by
  obtain ⟨c, hc, hlt⟩ := h
  simp only [stepProxy, hphase, hc]
  rw [if_neg]
  rintro ⟨-, heq⟩
  omega

theorem Stale.openTransport (service : Service) (h : Stale s) {startedUp : Bool}
    (hphase : s.phase = .arrived startedUp) :
    stepProxy service s .openTransport = some { s with phase := .calling startedUp } := by
  obtain ⟨c, hc, -⟩ := h
  simp only [stepProxy, hphase, hc]

/-- A run without outages. -/
def Quiet (service : Service) (s t : Proxy) : Prop :=
  ∃ as, Action.outage ∉ as ∧ (proxy service).run s as = some t

theorem Quiet.refl : Quiet service s s := ⟨[], by simp, rfl⟩

theorem Quiet.head {t : Proxy} (ha : a ≠ .outage) (hstep : stepProxy service s a = some s')
    (h : Quiet service s' t) : Quiet service s t := by
  obtain ⟨as, has, hrun⟩ := h
  exact ⟨a :: as, List.not_mem_cons_of_ne_of_not_mem ha.symm has,
    Machine.run_cons hstep hrun⟩

theorem Quiet.trans {t u : Proxy} (h : Quiet service s t) (h' : Quiet service t u) :
    Quiet service s u := by
  obtain ⟨as, has, hrun⟩ := h
  obtain ⟨bs, hbs, hrun'⟩ := h'
  refine ⟨as ++ bs, by simp [has, hbs], ?_⟩
  rw [Machine.run_append, hrun]
  exact hrun'

/-- The request in progress, if any, ends, and leaves the transport stale. -/
theorem Stale.settles (service : Service) (h : Stale s) :
    ∃ t, Quiet service s t ∧ Stale t ∧ t.up = s.up ∧ t.phase = .idle := by
  have hcalling : ∀ (s : Proxy) (startedUp : Bool), Stale s → s.phase = .calling startedUp →
      ∃ t, Quiet service s t ∧ Stale t ∧ t.up = s.up ∧ t.phase = .idle := by
    intro s startedUp hs hphase
    exact ⟨_, Quiet.head (by simp) (hs.call service hphase "") Quiet.refl, hs, rfl, rfl⟩
  cases hphase : s.phase with
  | idle => exact ⟨s, Quiet.refl, h, rfl, hphase⟩
  | arrived startedUp =>
    obtain ⟨t, ht, hrest⟩ := hcalling { s with phase := .calling startedUp } startedUp h rfl
    exact ⟨t, ht.head (by simp) (h.openTransport service hphase), hrest⟩
  | calling startedUp => exact hcalling s startedUp h hphase

/-- However the outage ends, the next request fails with the backend up. -/
theorem Stale.fails (service : Service) (h : Stale s) : ∃ t, Quiet service s t ∧ ¬ t.Recovers := by
  obtain ⟨u, hu, hstale, -, hidle⟩ := h.settles service
  -- The backend comes back, if it is not up.
  obtain ⟨v, hv, hstale, hup, hidle⟩ :
      ∃ v, Quiet service u v ∧ Stale v ∧ v.up = true ∧ v.phase = .idle := by
    by_cases hup : u.up = true
    · exact ⟨u, Quiet.refl, hstale, hup, hidle⟩
    · refine ⟨{ u with up := true }, Quiet.head (a := .recover) (by simp) ?_ Quiet.refl, hstale,
        rfl, hidle⟩
      simp only [stepProxy, hup]
      rfl
  have harrives : stepProxy service v .request = some { v with phase := .arrived v.up } := by
    simp only [stepProxy, hidle]
  have hopens := Stale.openTransport (s := { v with phase := .arrived v.up }) service hstale rfl
  have hcalls := Stale.call (s := { v with phase := .calling v.up }) service hstale rfl ""
  have hquiet := Quiet.head (by simp) harrives <| Quiet.head (by simp) hopens <|
    Quiet.head (by simp) hcalls Quiet.refl
  refine ⟨_, hu.trans (hv.trans hquiet), fun hrecovers => ?_⟩
  obtain ⟨text, htext⟩ := hrecovers ⟨v.up, v.up, none, v.outages⟩ List.mem_cons_self hup hup
  exact absurd htext (by simp)

end

/-! ### Runs -/

/-- **Run lemma.** -/
theorem Fresh.of_run {service : Service} {as : List Action} {s t : Proxy} (h : Fresh s)
    (hclosed : (proxy service).Meets FindsClosed s as)
    (hrun : (proxy service).run s as = some t) : Fresh t :=
  Machine.guarded_run (fun _ _ _ hs ha hstep => hs.step ha hstep) h hclosed hrun

/-- A run without outages meets the guard anywhere. -/
theorem meets_of_no_outage {service : Service} {bs : List Action} (h : Action.outage ∉ bs)
    (s : Proxy) : (proxy service).Meets FindsClosed s bs := by
  apply Machine.meets_of_forall
  intro b hb _ heq
  exact absurd (heq ▸ hb) h

/-- **Recovery, exactly.** For both handlers and every run, that is, every sequence of requests
    with outages and recoveries of the backend at any point: however the run goes on without a
    further outage, every request that starts and ends with the backend up is served over a
    connection opened after the last outage, if and only if no outage of the run found the
    transport open. -/
theorem recovers_iff (service : Service) (as : List Action) (s : Proxy)
    (hrun : (proxy service).run {} as = some s) :
    (∀ bs t, Action.outage ∉ bs → (proxy service).run s bs = some t → t.Recovers) ↔
      (proxy service).Meets FindsClosed {} as := by
  constructor
  · intro hrecovers
    rcases Machine.meets_or_marked (C := FindsClosed) (D := Stale) (I := Past)
      (fun _ _ _ h hstep => h.step hstep)
      (fun _ _ _ h hopen hstep => stale_of_not_findsClosed h hopen hstep)
      (fun _ _ _ h hstep => h.step hstep) (fun c hc => absurd hc (by simp)) hrun with
      hmeets | hstale
    · exact hmeets
    · obtain ⟨t, ⟨bs, hbs, hbsrun⟩, hfails⟩ := hstale.fails service
      exact absurd (hrecovers bs t hbs hbsrun) hfails
  · intro hmeets bs t hbs hbsrun
    have hinitial : Fresh {} := ⟨fun c hc => absurd hc (by simp), fun x hx => absurd hx (by simp)⟩
    have hs : Fresh s := hinitial.of_run hmeets hrun
    exact (hs.of_run (meets_of_no_outage hbs s) hbsrun).recovers

/-- An outage before the first request does no harm. -/
theorem recovers_before_first_request :
    ∃ s, (proxy .mlInfer).run {} [.outage, .recover, .request, .openTransport, .call ""] = some s ∧
      ∀ bs t, Action.outage ∉ bs → (proxy .mlInfer).run s bs = some t → t.Recovers :=
  ⟨_, rfl, (recovers_iff .mlInfer [.outage, .recover, .request, .openTransport, .call ""] _
    rfl).mpr (by decide)⟩

/-- One request is served, the backend goes down and comes back, and the next request fails. -/
theorem fails_after_outage :
    ∃ s, (proxy .echoService).run {} [.request, .openTransport, .call "hello", .outage, .recover,
        .request, .openTransport, .call "hello"] = some s ∧ ¬ s.Recovers := by
  refine ⟨_, rfl, fun hrecovers => ?_⟩
  obtain ⟨text, htext⟩ := hrecovers ⟨true, true, none, 1⟩ List.mem_cons_self rfl rfl
  exact absurd htext (by simp)

end ThriftBench.Web
