import ReasonAct.Proofs.World.Lifecycle
set_option autoImplicit false

namespace ReasonAct

inductive Kind where
  | agent
  | registry
  | client
  deriving DecidableEq, Repr

namespace Session

def tracked : Kind → Session → List Nat
  | .agent, s => s.agents
  | .registry, s => s.registries
  | .client, s => s.clients

def letIn : Kind → Nat → Session → Session
  | .agent, item, s => { s with agents := track item s.agents }
  | .registry, item, s => { s with registries := track item s.registries }
  | .client, item, s => { s with clients := track item s.clients }

theorem counts_eq (s : Session) : s.counts =
    ⟨(s.tracked .agent).length, (s.tracked .registry).length, (s.tracked .client).length⟩ := rfl

@[simp] theorem closed_letIn (kind : Kind) (item : Nat) (s : Session) :
    (s.letIn kind item).closed = s.closed := by cases kind <;> rfl

@[simp] theorem arena_letIn (kind : Kind) (item : Nat) (s : Session) :
    (s.letIn kind item).arena = s.arena := by cases kind <;> rfl

theorem tracked_letIn (kind kind' : Kind) (item : Nat) (s : Session) :
    (s.letIn kind item).tracked kind' =
      if kind = kind' then track item (s.tracked kind') else s.tracked kind' := by
  cases kind <;> cases kind' <;> rfl

theorem letIn_of_tracked {kind : Kind} {item : Nat} {s : Session} (h : item ∈ s.tracked kind) :
    s.letIn kind item = s := by
  cases kind <;> simp only [tracked] at h <;> simp [letIn,track,h]

end Session

namespace World

inductive Admission where
  | createAgent (session : Nat) (o : AgentOptions) (route : Route)
  | createRegistry (session : Nat)
  | addAgent (session agent : Nat)
  | addRegistry (session registry : Nat)
  | addClient (session client : Nat)

def foreign? (w : World) (i owner : Nat) (kind : String) : Option Error :=
  if owner = i then none
  else some (.invalidArgument
    (kind ++ " belongs to session " ++ w.labelOf owner ++ ", not " ++ w.labelOf i))

namespace Admission

def session : Admission → Nat
  | .createAgent i _ _ | .createRegistry i | .addAgent i _ | .addRegistry i _ | .addClient i _ => i

def kind : Admission → Kind
  | .createAgent _ _ _ | .addAgent _ _ => .agent
  | .createRegistry _ | .addRegistry _ _ => .registry
  | .addClient _ _ => .client

def item (w : World) : Admission → Nat
  | .createAgent _ _ _ => w.agents.length
  | .createRegistry _ => w.registries.length
  | .addAgent _ item | .addRegistry _ item | .addClient _ item => item

def added (w : World) (item : Nat) : Except Error World → Except Error Nat × World
  | .error e => (.error e, w)
  | .ok w' => (.ok item, w')

def ask (w : World) : Admission → Except Error Nat × World
  | .createAgent i o route => w.createAgent i o route
  | .createRegistry i => w.createRegistry i
  | .addAgent i agent => added w agent (w.trackAgent i agent)
  | .addRegistry i registry => added w registry (w.trackRegistry i registry)
  | .addClient i client => added w client (w.trackClient i client)

/-- What is wrong with a call, its session apart. The first fault counts. -/
def fault? (w : World) : Admission → Option Error
  | .createAgent i o _ =>
    if Text.blank o.name then some (.invalidArgument "agent name must not be empty")
    else if o.maxIterations = 0 then some (.invalidArgument "max_iterations must be at least 1")
    else if (o.registry.bind fun r => w.registries[r]?).any (·.session ≠ i) then
      some (.invalidArgument "tool registry belongs to a different session")
    else none
  | .addAgent i agent => w.foreign? i ((w.agents[agent]?.map Agent.session).getD i) "agent"
  | .addRegistry i registry =>
    w.foreign? i ((w.registries[registry]?.map Registry.session).getD i) "registry"
  | .createRegistry _ | .addClient _ _ => none

def made (s : Session) (w : World) : Admission → World
  | .createAgent i o route => { w with agents := w.agents ++
      [⟨o.name, i, s.workingDir, route, o.registry, o.memory, o.maxIterations, o.timeoutMs,
        o.instructions, o.bus.or s.bus, o.userData, 0, false⟩] }
  | .createRegistry i => { w with registries := w.registries ++ [⟨i, [], false⟩] }
  | .addAgent _ _ | .addRegistry _ _ | .addClient _ _ => w

@[simp] theorem sessions_made (s : Session) (w : World) (x : Admission) :
    (x.made s w).sessions = w.sessions := by cases x <;> rfl

def admitted (s : Session) (w : World) (x : Admission) : World :=
  (x.made s w).updateSession (Session.letIn x.kind (x.item w)) x.session

def judged (s : Session) (w : World) (x : Admission) : Except Error Nat × World :=
  match x.fault? w with
  | some e => (.error e, w)
  | none => (.ok (x.item w), x.admitted s w)

def There (w : World) : Admission → Prop
  | .createAgent _ o _ => ∀ r, o.registry = some r → r < w.registries.length
  | .addAgent _ agent => agent < w.agents.length
  | .addRegistry _ registry => registry < w.registries.length
  | .createRegistry _ | .addClient _ _ => True

end Admission

variable {w w' : World}

theorem isClosed_iff {i : Nat} :
    w.isClosed i = true ↔ w.sessions[i]?.map Session.closed = some true := by
  unfold isClosed
  cases w.sessions[i]?.map Session.closed <;> simp

section Tracking

variable (w : World) (i j : Nat)

theorem checkOwner_eq (owner : Nat) (kind : String) : w.checkOwner i owner kind =
    match w.foreign? i owner kind with
    | some e => .error e
    | none => .ok () := by
  unfold checkOwner foreign?
  split <;> rfl

theorem trackAgent_eq : w.trackAgent i j =
    match w.openSession? i with
    | .error e => .error e
    | .ok _ =>
      match (Admission.addAgent i j).fault? w with
      | some e => .error e
      | none => .ok (w.updateSession (Session.letIn .agent j) i) := by
  simp only [trackAgent,checkOwner_eq,Admission.fault?,bind,Except.bind]
  cases w.openSession? i with
  | error e => rfl
  | ok s => cases w.foreign? i ((w.agents[j]?.map Agent.session).getD i) "agent" <;> rfl

theorem trackRegistry_eq : w.trackRegistry i j =
    match w.openSession? i with
    | .error e => .error e
    | .ok _ =>
      match (Admission.addRegistry i j).fault? w with
      | some e => .error e
      | none => .ok (w.updateSession (Session.letIn .registry j) i) := by
  simp only [trackRegistry,checkOwner_eq,Admission.fault?,bind,Except.bind]
  cases w.openSession? i with
  | error e => rfl
  | ok s => cases w.foreign? i ((w.registries[j]?.map Registry.session).getD i) "registry" <;> rfl

theorem trackClient_eq : w.trackClient i j =
    match w.openSession? i with
    | .error e => .error e
    | .ok _ => .ok (w.updateSession (Session.letIn .client j) i) := by
  simp only [trackClient,bind,Except.bind]
  cases w.openSession? i <;> rfl

end Tracking

namespace Admission

/-- Every call comes to the same: the session is looked at first, then the fault, and only when
there is none anything changes. -/
theorem ask_eq (x : Admission) (w : World) : x.ask w =
    match w.openSession? x.session with
    | .error e => (.error e, w)
    | .ok s => x.judged s w := by
  cases x with
  | createAgent i o route =>
    simp only [ask,World.createAgent,session,judged,fault?]
    cases hs : w.openSession? i with
    | error e => rfl
    | ok s =>
      dsimp only
      split
      · rfl
      split
      · rfl
      split
      · rfl
      have hopen : ((createAgent i o route).made s w).openSession? i = .ok s := hs
      have hown : (addAgent i w.agents.length).fault? ((createAgent i o route).made s w) =
          none := by simp [fault?,made,foreign?]
      have htrack := trackAgent_eq ((createAgent i o route).made s w) i w.agents.length
      rw [hopen,hown] at htrack
      simp only [made] at htrack
      rw [htrack]
      rfl
  | createRegistry i =>
    simp only [ask,World.createRegistry,session,judged,fault?]
    cases hs : w.openSession? i with
    | error e => rfl
    | ok s =>
      have hopen : ((createRegistry i).made s w).openSession? i = .ok s := hs
      have hown : (addRegistry i w.registries.length).fault? ((createRegistry i).made s w) =
          none := by simp [fault?,made,foreign?]
      have htrack := trackRegistry_eq ((createRegistry i).made s w) i w.registries.length
      rw [hopen,hown] at htrack
      simp only [made] at htrack
      dsimp only
      rw [htrack]
      rfl
  | addAgent i agent =>
    simp only [ask,trackAgent_eq,session,judged]
    cases w.openSession? i with
    | error e => rfl
    | ok s => cases (addAgent i agent).fault? w <;> rfl
  | addRegistry i registry =>
    simp only [ask,trackRegistry_eq,session,judged]
    cases w.openSession? i with
    | error e => rfl
    | ok s => cases (addRegistry i registry).fault? w <;> rfl
  | addClient i client =>
    simp only [ask,trackClient_eq,session]
    cases w.openSession? i <;> rfl

variable (x : Admission)

theorem ask_open {s : Session} (hs : w.sessions[x.session]? = some s) (hopen : s.closed = false) :
    x.ask w = x.judged s w := by
  rw [ask_eq]
  simp [openSession?,hs,hopen]

theorem ask_closed (hc : w.isClosed x.session = true) :
    x.ask w = (.error (Run.sessionClosed (w.labelOf x.session)), w) := by
  obtain ⟨s,hs,hclosed⟩ := Option.map_eq_some_iff.mp (isClosed_iff.mp hc)
  rw [ask_eq]
  simp [openSession?,labelOf,hs,hclosed]

theorem ask_cases (w : World) : (∃ e, x.ask w = (.error e, w)) ∨
    ∃ s, w.sessions[x.session]? = some s ∧ s.closed = false ∧ x.fault? w = none ∧
      x.ask w = (.ok (x.item w), x.admitted s w) := by
  cases hs : w.openSession? x.session with
  | error e => exact .inl ⟨e,by rw [ask_eq,hs]⟩
  | ok s =>
    obtain ⟨hat,hopen⟩ := openSession?_ok hs
    have hask := x.ask_open hat hopen
    unfold judged at hask
    cases hf : x.fault? w with
    | some e => exact .inl ⟨e,by rw [hask,hf]⟩
    | none => exact .inr ⟨s,hat,hopen,rfl,by rw [hask,hf]⟩

theorem ask_reaches (h : x.There w) : Reaches w (x.ask w).2 := by
  cases x with
  | createAgent i o route => exact .single (.createAgent i o route h)
  | createRegistry i => exact .single (.createRegistry i)
  | addAgent i agent =>
    cases htrack : w.trackAgent i agent with
    | error e => simpa only [ask,added,htrack] using Relation.ReflTransGen.refl
    | ok w' => simpa only [ask,added,htrack] using .single (.trackAgent i agent h htrack)
  | addRegistry i registry =>
    cases htrack : w.trackRegistry i registry with
    | error e => simpa only [ask,added,htrack] using Relation.ReflTransGen.refl
    | ok w' => simpa only [ask,added,htrack] using .single (.trackRegistry i registry h htrack)
  | addClient i client =>
    cases htrack : w.trackClient i client with
    | error e => simpa only [ask,added,htrack] using Relation.ReflTransGen.refl
    | ok w' => simpa only [ask,added,htrack] using .single (.trackClient i client htrack)

theorem code_of_fault {e : Error} (h : x.fault? w = some e) : e.code = .invalidArgument := by
  have hforeign {i owner : Nat} {kind : String} (h : w.foreign? i owner kind = some e) :
      e.code = .invalidArgument := by
    unfold foreign? at h
    split at h
    · contradiction
    · exact Option.some.inj h ▸ rfl
  cases x with
  | createAgent i o route =>
    simp only [fault?] at h
    split at h
    · exact Option.some.inj h ▸ rfl
    split at h
    · exact Option.some.inj h ▸ rfl
    split at h
    · exact Option.some.inj h ▸ rfl
    · contradiction
  | createRegistry i => contradiction
  | addAgent i agent => exact hforeign h
  | addRegistry i registry => exact hforeign h
  | addClient i client => contradiction

end Admission
end World
end ReasonAct
