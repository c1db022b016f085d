import ReasonAct.Proofs.World.Chronicle
set_option autoImplicit false

namespace ReasonAct.World

variable {w w' : World} {log : List Intake}

def owner? (w : World) : Kind → Nat → Option Nat
  | .agent, j => w.agents[j]?.map Agent.session
  | .registry, j => w.registries[j]?.map Registry.session
  | .client, _ => none

theorem owner?_of_tracked (hw : Orderly [] w) {i j : Nat} {s : Session}
    (hs : w.sessions[i]? = some s) {kind : Kind} (hkind : kind ≠ .client)
    (hj : j ∈ s.tracked kind) : w.owner? kind j = some i := by
  cases kind with
  | agent =>
    obtain ⟨a,ha,hsession⟩ := hw.agents.made i s hs j hj
    simp [owner?,ha,hsession]
  | registry =>
    obtain ⟨r,hr,hsession⟩ := hw.registries.made i s hs j hj
    simp [owner?,hr,hsession]
  | client => exact absurd rfl hkind

theorem Lasting.owner? (h : Lasting w w') {kind : Kind} {i j : Nat}
    (hj : w.owner? kind j = some i) : w'.owner? kind j = some i := by
  cases kind with
  | agent =>
    obtain ⟨a,ha,hsession⟩ := Option.map_eq_some_iff.mp hj
    obtain ⟨a',ha',hsame,-⟩ := h.agents j a ha
    simp [World.owner?,ha',hsame,hsession]
  | registry =>
    obtain ⟨r,hr,hsession⟩ := Option.map_eq_some_iff.mp hj
    obtain ⟨r',hr',hsame⟩ := h.registries j r hr
    simp [World.owner?,hr',hsame,hsession]
  | client => contradiction

/-- What the session `i` tracks is its own, and nothing stands there twice. While it is open it has
as much of each kind as was let in. -/
structure Owned (i : Nat) (s : Session) (log : List Intake) (w : World) : Prop where
  once : ∀ kind, (s.tracked kind).Nodup
  owner : ∀ kind ≠ .client, ∀ j ∈ s.tracked kind, w.owner? kind j = some i
  counts : s.closed = false → s.counts = ⟨(things .agent i log).eraseDups.length,
    (things .registry i log).eraseDups.length, (things .client i log).eraseDups.length⟩

theorem Chronicle.owned (h : Chronicle log w) {i : Nat} {s : Session}
    (hs : w.sessions[i]? = some s) : Owned i s log w where
  once := by
    obtain ⟨hclients,hagents,hregistries⟩ := h.reachable.tracks i s hs
    intro kind
    cases kind with
    | agent => exact hagents
    | registry => exact hregistries
    | client => exact hclients
  owner := fun _ hkind _ hj => owner?_of_tracked h.reachable.orderly hs hkind hj
  counts := by
    intro hopen
    have htracked (kind : Kind) : s.tracked kind = (things kind i log).eraseDups := by
      rw [← h.tracked (by simp [isClosed,hs,hopen]),trackedBy,hs]
      rfl
    rw [s.counts_eq,htracked,htracked,htracked]

/-- What comes of a call that asks a session to track something. -/
structure Decided (x : Admission) (w : World) : Prop where
  /-- Whatever is refused leaves everything as it was. -/
  refused : ∀ e, (x.ask w).1 = .error e → (x.ask w).2 = w
  closed : w.isClosed x.session = true →
    x.ask w = (.error (Run.sessionClosed (w.labelOf x.session)), w)
  faulty : ∀ s e, w.sessions[x.session]? = some s → s.closed = false → x.fault? w = some e →
    x.ask w = (.error e, w) ∧ e.code = .invalidArgument
  taken : ∀ s, w.sessions[x.session]? = some s → s.closed = false → x.fault? w = none →
    (x.ask w).1 = .ok (x.item w) ∧
      x.item w ∈ (x.ask w).2.trackedBy x.kind x.session ∧
      (x.item w ∈ s.tracked x.kind → (x.ask w).2 = w)
  /-- What a session took of its own is tracked by no other session, ever after. -/
  kept : x.There w → x.kind ≠ .client → ∀ item, (x.ask w).1 = .ok item →
    ∀ w', Reaches (x.ask w).2 w' → ∀ i s, w'.sessions[i]? = some s → item ∈ s.tracked x.kind →
      i = x.session

section Decided

variable {x : Admission} {s : Session}

theorem updateSession_of_eq {f : Session → Session} {i : Nat} (hs : w.sessions[i]? = some s)
    (hf : f s = s) : w.updateSession f i = w := by
  have hsame : w.sessions.modify i f = w.sessions := by
    refine List.ext_getElem? fun j => ?_
    rw [getElem?_modify_map]
    by_cases hj : i = j
    · subst hj
      simp [hs,hf]
    · simp [hj]
  simp only [updateSession,hsame]

theorem admitted_of_tracked (hw : Orderly [] w) (hs : w.sessions[x.session]? = some s)
    (hitem : x.item w ∈ s.tracked x.kind) : x.admitted s w = w := by
  cases x with
  | createAgent i o route =>
    obtain ⟨a,ha,-⟩ := hw.agents.made i s hs _ hitem
    simp [Admission.item] at ha
  | createRegistry i =>
    obtain ⟨r,hr,-⟩ := hw.registries.made i s hs _ hitem
    simp [Admission.item] at hr
  | addAgent i agent => exact updateSession_of_eq hs (Session.letIn_of_tracked hitem)
  | addRegistry i registry => exact updateSession_of_eq hs (Session.letIn_of_tracked hitem)
  | addClient i client => exact updateSession_of_eq hs (Session.letIn_of_tracked hitem)

theorem mem_of_trackedBy {kind : Kind} {i j : Nat} (h : j ∈ w.trackedBy kind i) :
    ∃ s, w.sessions[i]? = some s ∧ j ∈ s.tracked kind := by
  unfold trackedBy at h
  cases hs : w.sessions[i]? with
  | none => simp [hs] at h
  | some s => exact ⟨s,rfl,by simpa [hs] using h⟩

theorem mem_trackedBy_ask {item : Nat} (hok : (x.ask w).1 = .ok item) :
    item ∈ (x.ask w).2.trackedBy x.kind x.session := by
  rcases x.ask_cases w with ⟨e,hask⟩ | ⟨s,hs,-,-,hask⟩
  · rw [hask] at hok
    contradiction
  · rw [hask] at hok ⊢
    rw [← Except.ok.inj hok,trackedBy_admitted hs,if_pos ⟨rfl,rfl⟩]
    exact mem_track.mpr (.inl rfl)

theorem decided (hw : w.Reachable) (x : Admission) : Decided x w where
  refused := by
    intro e he
    rcases x.ask_cases w with ⟨e',hask⟩ | ⟨s,-,-,-,hask⟩
    · rw [hask]
    · rw [hask] at he
      contradiction
  closed := x.ask_closed
  faulty := by
    intro s e hs hopen hfault
    rw [x.ask_open hs hopen,Admission.judged,hfault]
    exact ⟨rfl,x.code_of_fault hfault⟩
  taken := by
    intro s hs hopen hfault
    have hask : x.ask w = (.ok (x.item w), x.admitted s w) := by
      rw [x.ask_open hs hopen,Admission.judged,hfault]
    refine ⟨by rw [hask],mem_trackedBy_ask (by rw [hask]),?_⟩
    intro hitem
    rw [hask]
    exact admitted_of_tracked hw.orderly hs hitem
  kept := by
    intro there hkind item hok w' hreach i s' hs' hitem
    have hafter : (x.ask w).2.Reachable := hw.reaches (x.ask_reaches there)
    obtain ⟨s,hs,htracked⟩ := mem_of_trackedBy (mem_trackedBy_ask hok)
    have howner := owner?_of_tracked hafter.orderly hs hkind htracked
    obtain ⟨horder,hlast⟩ := reaches_orderly hreach hafter.orderly
    have hthere := hlast.owner? howner
    rw [owner?_of_tracked horder hs' hkind hitem] at hthere
    exact Option.some.inj hthere

end Decided

def Admission.all (xs : List Admission) (w : World) : World := xs.foldl (fun w x => (x.ask w).2) w

end ReasonAct.World
