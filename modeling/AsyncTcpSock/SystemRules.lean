import AsyncTcpSock.HandlerRules
import AsyncTcpSock.Soundness

/-!
# The rule for the system

A world assertion `K` and a family `J c φ` of assertions for the phases of handlers, with
`J c .idle` the same as `K`, hold in every run when they are kept by the moves of handlers, by the
bookkeeping of the manager, and by the steps that user code and the lwIP thread may take. The rules
here reduce whole manager cycles to these conditions; soundness comes for free.
-/

namespace AsyncTcpSock

open Reentrant Proc

variable [Configuration]

/-- The contract of the system in runs that meet `good`: callbacks get worlds that satisfy `G`, and
faults leave worlds that satisfy `F`. -/
def systemContract (good : StepCondition) (G : Yield → World → Prop) (F : Fault → World → Prop) :
    Contract World Yield Fault where
  env := Machine.envOf machine good
  atYield := G
  atFault := F

/-- The conditions on `K` and `J` that concern the handlers of clients. -/
structure ClientRule (good : StepCondition) (G : Yield → World → Prop) (F : Fault → World → Prop)
    (K : World → Prop) (J : ClientId → Phase → World → Prop) : Prop where
  /-- A client that is not being handled satisfies nothing more than the world does. -/
  idle {c : ClientId} {w : World} : J c .idle w ↔ K w
  /-- The steps of the handlers lead from assertion to assertion. -/
  step {c : ClientId} {φ φ' : Phase} {w w' : World} : w.Sound → J c φ w →
    HandlerMove c φ φ' w w' → J c φ' w'
  /-- A client may be marked as active. -/
  touch {c : ClientId} {w : World} {cl : Client} {o : Outcomes} {t : Time} : w.Sound → K w →
    w.clients c = some cl → w.clock ≤ t → K (w.put c { cl with lastActive := t } o t)
  /-- Time may pass. -/
  elapse {w : World} {o : Outcomes} {t : Time} : w.Sound → K w → w.clock ≤ t → K (w.elapse o t)
  /-- What is known when a client is gone while a handler still needs it. -/
  stale {c : ClientId} {φ : Phase} {w w' : World} : w.Sound → J c φ w → φ ≠ .idle →
    w.clients c = none → w.Agrees w' → F (.staleClient c) w'
  /-- What is known when a handler delivers a callback of a client. -/
  yield {c : ClientId} {φ : Phase} {w : World} (cb : Callback) : φ.yields = true → w.Sound →
    J c φ w → Delivered c cb (J c) φ w → G (.client c cb (φ = .idle)) w
  /-- What user code does in a callback of a client. -/
  env {c : ClientId} {φ : Phase} {cb : Callback} {e : Ext} {w w' : World} : φ.yields = true →
    w.Sound → J c φ w → good (some (.client c cb (φ = .idle))) w e → Change e w w' → J c φ w'

/-- The conditions on `K` that concern the handlers of servers. -/
structure ServerRule (good : StepCondition) (G : Yield → World → Prop) (K : World → Prop) :
    Prop where
  /-- The manager changes no descriptor of a server. -/
  update {srv : ServerId} {w : World} {s : Server} (s' : Server) : w.Sound → K w →
    w.servers srv = some s → s'.socket = s.socket → K (w.setServer srv s')
  /-- A server accepts a client. -/
  accept {socket : ℤ} {w w' : World} : w.Sound → K w → Change (.newClientFrom socket) w w' → K w'
  /-- What is known in the accept callback of a server. -/
  yield {srv : ServerId} {c : ClientId} {w : World} : w.Sound → K w → G (.accept srv c) w
  /-- What user code does in the accept callback of a server. -/
  env {srv : ServerId} {c : ClientId} {e : Ext} {w w' : World} : w.Sound → K w →
    good (some (.accept srv c)) w e → Change e w w' → K w'

/-! ## Handlers -/

/-- The client waits for its turn in a phase; in the DNS phase it has an answer. -/
def Ready (dns : Bool) (c : ClientId) (w : World) : Prop :=
  dns = true → c < w.nextClient ∧ ∀ cl, w.clients c = some cl → cl.dnsFinished = true

/-- The manager has still to come to the clients `rest` in a phase. -/
structure Pending (dns : Bool) (rest : List ClientId) (w : World) : Prop where
  /-- The clients of the snapshot that have still to be served. -/
  processing : w.clientsProcessing = rest
  /-- They are ready to be served. -/
  ready : ∀ c ∈ rest, Ready dns c w

section

variable {w w' : World} {dns : Bool} {rest : List ClientId}

omit [Configuration] in
theorem Pending.of_move {R : Time → Time → Client → SocketChange → Client → Prop} {c : ClientId}
    (hrest : Pending dns rest w) (hc : dns = true → c ∉ rest) (h : Move R c w w') :
    Pending dns rest w' where
  processing := h.frame.clientsProcessing.trans hrest.processing
  ready c' hc' hdns := by
    obtain ⟨hlt, hready⟩ := hrest.ready c' hc' hdns
    refine ⟨hlt.trans_le h.frame.nextClient, ?_⟩
    rwa [h.clients_of_ne fun heq => hc hdns (heq ▸ hc')]

theorem Pending.of_change {e : Ext} (hrest : Pending dns rest w) (h : Change e w w') :
    Pending dns rest w' where
  processing := h.frame.clientsProcessing.trans hrest.processing
  ready c' hc' hdns := by
    obtain ⟨hlt, hready⟩ := hrest.ready c' hc' hdns
    refine ⟨hlt.trans_le h.frame.nextClient, fun cl' hcl' => ?_⟩
    obtain ⟨cl, hcl, hrun⟩ | ⟨rfl, -⟩ := h.userRun hcl'
    · exact hrun.dnsFinished (hready cl hcl)
    · exact absurd hlt (lt_irrefl _)

end

variable {good : StepCondition} {G : Yield → World → Prop} {F : Fault → World → Prop}
  {K : World → Prop} {J : ClientId → Phase → World → Prop}

/-- What a step of the environment does, whatever the contract guarantees. -/
theorem exists_change {i : Yield} {w w' : World} (hw : w.Sound)
    (h : (systemContract good G F).env i w w') : ∃ e, good (some i) w e ∧ Change e w w' := by
  obtain ⟨e, hgood, happly⟩ := h
  exact ⟨e, hgood, Ext.change hw.unheld happly⟩

namespace ClientRule

variable {w : World} {c : ClientId} {dns : Bool} {rest : List ClientId}

/-- The assertions of a client in a phase are kept by its handlers. -/
theorem handlerRule (h : ClientRule good G F K J) (hc : dns = true → c ∉ rest) :
    HandlerRule (systemContract good G F) c (fun _ => True)
      fun φ w => w.Sound ∧ J c φ w ∧ Pending dns rest w where
  touch := fun ⟨hw, hJ, hrest⟩ hcl ht =>
    have hmove := Move.of_kept (R := UserStep) _ hcl ht (.touch _)
    ⟨hmove.sound hw, h.idle.mpr (h.touch hw (h.idle.mp hJ) hcl ht), hrest.of_move hc hmove⟩
  enter := fun _ ⟨hw, hJ, hrest⟩ hmove =>
    ⟨hmove.sound hw, h.step hw hJ hmove, hrest.of_move hc hmove⟩
  handler := fun ⟨hw, hJ, hrest⟩ _ hmove =>
    ⟨hmove.sound hw, h.step hw hJ hmove, hrest.of_move hc hmove⟩
  unheld := fun ⟨hw, _, _⟩ => hw.unheld
  stale := fun ⟨hw, hJ, _⟩ hφ hcl hagrees => h.stale hw hJ hφ hcl hagrees
  yield := fun cb hφ ⟨hw, hJ, _⟩ hdelivered =>
    h.yield cb hφ hw hJ (hdelivered.mono fun _ _ ⟨_, hJ', _⟩ => hJ')
  env := fun hφ ⟨hw, hJ, hrest⟩ henv => by
    obtain ⟨e, hgood, hchange⟩ := exists_change hw henv
    exact ⟨hchange.sound hw, h.env hφ hw hJ hgood hchange, hrest.of_change hchange⟩

/-- A handler of a live client. -/
theorem wp_handle (h : ClientRule good G F K J) (dns : Bool) (rest : List ClientId)
    {handler : Handler} {cl : Client}
    (hcl : w.clients c = some cl) (hdns : handler = .delayedConnect → cl.dnsFinished = true)
    (hc : dns = true → c ∉ rest) (hw : w.Sound) (hK : K w) (hrest : Pending dns rest w) :
    wp (systemContract good G F) (Manager.handle handler c)
      (fun _ w' => w'.Sound ∧ K w' ∧ Pending dns rest w') w :=
  wp_mono ((h.handlerRule hc).wp_handle handler trivial hcl hdns ⟨hw, h.idle.mpr hK, hrest⟩)
    fun _ _ ⟨hw', hJ', hrest'⟩ => ⟨hw', h.idle.mp hJ', hrest'⟩

end ClientRule

/-- A handler of a client that is gone. -/
theorem wp_handle_gone {C : Contract World Yield Fault} {w : World} {c : ClientId}
    {Q : Unit → World → Prop} (handler : Handler) (hcl : w.clients c = none)
    (hfault : ∀ w', w.Agrees w' → C.atFault (.staleClient c) w') :
    wp C (Manager.handle handler c) Q w := by
  cases handler with
  | readable =>
      rw [Manager.handle, wp_bind, Manager.setLastActive, wp_bind]
      refine wp_now fun o t ht => ?_
      rw [wp_update, World.elapse_clients, hcl]
      exact hfault _ (.elapse ht)
  | writeable =>
      simp only [Manager.handle, ClientBase.sockIsWriteable, wp_bind, wp_log, hcl, Option.elim_none]
      exact hfault _ .refl
  | delayedConnect =>
      simp only [Manager.handle, Manager.setDnsFinished, wp_bind, wp_update, hcl, Option.elim_none]
      exact hfault _ .refl
  | poll =>
      simp only [Manager.handle, ClientBase.sockPoll, wp_bind, wp_log, hcl, Option.elim_none]
      exact hfault _ .refl
  | done =>
      simp only [Manager.handle, ClientBase.processingDone, wp_bind, wp_log, hcl, Option.elim_none]
      exact hfault _ .refl

end AsyncTcpSock
