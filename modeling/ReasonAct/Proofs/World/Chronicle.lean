import ReasonAct.Proofs.World.Isolation
/-!
Worlds with their past. While a session is open it tracks what was let into it, each thing once, and
its registries list what was added to them; what was refused does not show.
-/
set_option autoImplicit false

namespace ReasonAct.World

inductive Intake where
  | thing (kind : Kind) (session item : Nat)
  | tool (registry : Nat) (tool : Tool)

namespace Intake

def item? (kind : Kind) (i : Nat) : Intake → Option Nat
  | .thing kind' i' item => if kind' = kind ∧ i' = i then some item else none
  | .tool _ _ => none

def tool? (id : Nat) : Intake → Option Tool
  | .thing _ _ _ => none
  | .tool id' t => if id' = id then some t else none

end Intake

def things (kind : Kind) (i : Nat) (log : List Intake) : List Nat :=
  log.filterMap (Intake.item? kind i)

def tools (id : Nat) (log : List Intake) : List Tool := log.filterMap (Intake.tool? id)

def Admission.intake (w : World) (x : Admission) : List Intake :=
  match (x.ask w).1 with
  | .ok item => [.thing x.kind x.session item]
  | .error _ => []

def toolIntake (w : World) (id : Nat) (tool : Tool) : List Intake :=
  match (w.addTool id tool).1 with
  | .ok _ => [.tool id tool]
  | .error _ => []

/-- A world that was made by public operations, with all that was let in on the way. -/
inductive Chronicle : List Intake → World → Prop
  | empty (host : Arena.Host) (files : FileTree) (workingDir : Option String) (now : Instant) :
      Chronicle [] (World.empty host files workingDir now)
  | openSession {log : List Intake} {w : World} (h : Chronicle log w) (label : String)
      (config : Config) (bus : Option Nat) : Chronicle log (w.openSession label config bus).2
  | ask {log : List Intake} {w : World} (h : Chronicle log w) (x : Admission) (there : x.There w) :
      Chronicle (log ++ x.intake w) (x.ask w).2
  | addTool {log : List Intake} {w : World} (h : Chronicle log w) (id : Nat) (tool : Tool) :
      Chronicle (log ++ w.toolIntake id tool) (w.addTool id tool).2
  | close {log : List Intake} {w : World} (h : Chronicle log w) (i : Nat) :
      Chronicle log (w.close i)
  | count {log : List Intake} {w : World} (h : Chronicle log w) (agent : Nat) (n : UInt32) :
      Chronicle log (w.updateAgent (fun a => { a with iterations := n }) agent)
  | elsewhere {log : List Intake} {w w' : World} (h : Chronicle log w)
      (sessions : w'.sessions = w.sessions) (agents : w'.agents = w.agents)
      (registries : w'.registries = w.registries) (arenas : w'.nextArena = w.nextArena) :
      Chronicle log w'

variable {w w' : World} {log : List Intake} {kind : Kind} {i id : Nat}

theorem Chronicle.reachable (h : Chronicle log w) : w.Reachable := by
  induction h with
  | empty host files workingDir now => exact ⟨host,files,workingDir,now,.refl⟩
  | openSession _ label config bus ih => exact ih.reaches (.single (.openSession label config bus))
  | ask _ x there ih => exact ih.reaches (x.ask_reaches there)
  | addTool _ id tool ih => exact ih.reaches (.single (.addTool id tool))
  | close _ i ih => exact ih.reaches (.single (.close i))
  | count _ agent n ih => exact ih.reaches (.single (.count agent n))
  | elsewhere _ sessions agents registries arenas ih =>
    exact ih.reaches (.single (.elsewhere sessions agents registries arenas))

theorem Chronicle.step (h : Chronicle log w) (hstep : Step w w') :
    ∃ new, Chronicle (log ++ new) w' := by
  have same {v : World} (hv : Chronicle log v) : ∃ new, Chronicle (log ++ new) v :=
    ⟨[],by rwa [List.append_nil]⟩
  cases hstep with
  | openSession label config bus => exact same (h.openSession label config bus)
  | createRegistry session => exact ⟨_,h.ask (.createRegistry session) trivial⟩
  | createAgent session o route made => exact ⟨_,h.ask (.createAgent session o route) made⟩
  | addTool registry tool => exact ⟨_,h.addTool registry tool⟩
  | trackAgent session agent made htrack =>
    have hask := h.ask (.addAgent session agent) made
    simp only [Admission.ask,htrack] at hask
    exact ⟨_,hask⟩
  | trackRegistry session registry made htrack =>
    have hask := h.ask (.addRegistry session registry) made
    simp only [Admission.ask,htrack] at hask
    exact ⟨_,hask⟩
  | trackClient session client htrack =>
    have hask := h.ask (.addClient session client) trivial
    simp only [Admission.ask,htrack] at hask
    exact ⟨_,hask⟩
  | close session => exact same (h.close session)
  | count agent n => exact same (h.count agent n)
  | elsewhere sessions agents registries arenas =>
    exact same (h.elsewhere sessions agents registries arenas)

theorem Chronicle.reaches (h : Chronicle log w) (hreach : Reaches w w') :
    ∃ new, Chronicle (log ++ new) w' := by
  induction hreach with
  | refl => exact ⟨[],by rwa [List.append_nil]⟩
  | tail _ hstep ih =>
    obtain ⟨new,hnew⟩ := ih
    obtain ⟨more,hmore⟩ := hnew.step hstep
    exact ⟨new ++ more,by rwa [← List.append_assoc]⟩

theorem reachable_iff : w.Reachable ↔ ∃ log, Chronicle log w := by
  constructor
  · rintro ⟨host,files,workingDir,now,hreach⟩
    obtain ⟨log,hlog⟩ := (Chronicle.empty host files workingDir now).reaches hreach
    exact ⟨_,hlog⟩
  · rintro ⟨log,h⟩
    exact h.reachable

section Tracked

def trackedBy (w : World) (kind : Kind) (i : Nat) : List Nat :=
  (w.sessions[i]?.map (Session.tracked kind)).getD []

theorem eraseDups_concat {x : Nat} {xs : List Nat} :
    (xs ++ [x]).eraseDups = track x xs.eraseDups := by
  unfold track
  by_cases hx : x ∈ xs <;> simp [List.eraseDups_append,List.removeAll,hx,List.eraseDups_cons]

theorem trackedBy_admitted {x : Admission} {s : Session} (hs : w.sessions[x.session]? = some s) :
    (x.admitted s w).trackedBy kind i = if x.kind = kind ∧ x.session = i then
      track (x.item w) (w.trackedBy kind i) else w.trackedBy kind i := by
  simp only [Admission.admitted,trackedBy,updateSession,Admission.sessions_made,
    getElem?_modify_map,Option.map_map]
  by_cases hi : x.session = i
  · subst hi
    simp [hs,Session.tracked_letIn]
  · simp [hi,Function.comp_def]

theorem isClosed_admitted (x : Admission) (s : Session) (w : World) (i : Nat) :
    (x.admitted s w).isClosed i = w.isClosed i := by
  have hmap : (x.admitted s w).sessions.map Session.closed = w.sessions.map Session.closed := by
    simp only [Admission.admitted,updateSession,Admission.sessions_made]
    exact map_modify_of_eq fun s _ => Session.closed_letIn _ _ s
  simp only [isClosed,← List.getElem?_map,hmap]

theorem things_append (log new : List Intake) :
    things kind i (log ++ new) = things kind i log ++ things kind i new := List.filterMap_append

theorem standing_of_map (kind : Kind)
    (h : w'.sessions.map Session.closed = w.sessions.map Session.closed)
    (ht : w'.sessions.map (Session.tracked kind) = w.sessions.map (Session.tracked kind))
    (i : Nat) : w'.isClosed i = w.isClosed i ∧ w'.trackedBy kind i = w.trackedBy kind i := by
  simp only [isClosed,trackedBy,← List.getElem?_map,h,ht,and_self]

theorem standing_openSession (kind : Kind) (label : String) (config : Config) (bus : Option Nat)
    (w : World) (i : Nat) : (w.openSession label config bus).2.isClosed i = w.isClosed i ∧
      (w.openSession label config bus).2.trackedBy kind i = w.trackedBy kind i := by
  have hnew {α : Type} (f : Session → α) (s : Session) :
      ((w.sessions ++ [s])[i]?.map f).getD (f s) = (w.sessions[i]?.map f).getD (f s) := by
    rw [List.getElem?_append]
    split
    · rfl
    · rename_i hlt
      rw [List.getElem?_eq_none (by omega : w.sessions.length ≤ i),List.getElem?_singleton]
      split <;> rfl
  unfold openSession
  split
  · exact ⟨rfl,rfl⟩
  · exact ⟨hnew Session.closed _,by cases kind <;> exact hnew (Session.tracked _) _⟩

/-- An open session tracks each thing that was let into it, in the order of the first times. -/
theorem Chronicle.tracked (h : Chronicle log w) (hopen : w.isClosed i = false) :
    w.trackedBy kind i = (things kind i log).eraseDups := by
  induction h with
  | empty host files workingDir now => simp [trackedBy,World.empty,things]
  | @openSession log w h label config bus ih =>
    obtain ⟨hclosed,htracked⟩ := standing_openSession kind label config bus w i
    rw [htracked,ih (hclosed.symm.trans hopen)]
  | @ask log w h x there ih =>
    rcases x.ask_cases w with ⟨e,he⟩ | ⟨s,hs,-,-,hask⟩
    · simp only [he,Admission.intake,List.append_nil] at hopen ⊢
      exact ih hopen
    · simp only [hask,Admission.intake] at hopen ⊢
      rw [isClosed_admitted] at hopen
      rw [trackedBy_admitted hs,ih hopen,things_append]
      by_cases hx : x.kind = kind ∧ x.session = i
      · simp [hx,things,Intake.item?,eraseDups_concat]
      · simp [hx,things,Intake.item?]
  | @addTool log w h id tool ih =>
    have hnone : things kind i (w.toolIntake id tool) = [] := by
      unfold toolIntake
      split <;> rfl
    obtain ⟨hclosed,htracked⟩ := standing_of_map kind
      (map_sessions_addTool Session.closed (fun _ _ => rfl) id tool w)
      (map_sessions_addTool (Session.tracked kind) (fun _ _ => by cases kind <;> rfl) id tool w) i
    rw [htracked,things_append,hnone,List.append_nil,ih (hclosed.symm.trans hopen)]
  | @close log w h j ih =>
    have hw := h.reachable.orderly
    have hbefore := (close_orderly [] w j hw).2.lasting.isOpen hopen
    have hsession :=
      ((spared_closing.close hw j i).untouched (hopen.trans hbefore.symm)).session
    rw [← ih hbefore]
    simp only [trackedBy,hsession]
  | count _ agent n ih => exact ih hopen
  | elsewhere _ sessions agents registries arenas ih =>
    obtain ⟨hclosed,htracked⟩ := standing_of_map kind
      (congrArg (List.map Session.closed) sessions)
      (congrArg (List.map (Session.tracked kind)) sessions) i
    rw [htracked,ih (hclosed.symm.trans hopen)]

end Tracked

section Listed

def Serving (id : Nat) (w : World) : Prop :=
  ∀ r, w.registries[id]? = some r → w.isClosed r.session = false

theorem Serving.before (h : Serving id w') (hlast : Lasting w w') : Serving id w := by
  intro r hr
  obtain ⟨r',hr',hsession⟩ := hlast.registries id r hr
  exact hlast.isOpen (hsession ▸ h r' hr')

theorem listed_of_arenas (hs : w'.sessions.map Session.arena = w.sessions.map Session.arena)
    (hr : w'.registries = w.registries) (id : Nat) : w'.listed id = w.listed id := by
  simp only [listed,entriesOf,hr,arenaOf,← List.getElem?_map,hs]

theorem listed_of_untouched (hnone : w.registries[id]? = none → w'.registries[id]? = none)
    (h : ∀ r, w.registries[id]? = some r → Untouched r.session w w') :
    w'.listed id = w.listed id := by
  cases hr : w.registries[id]? with
  | none => simp only [listed,entriesOf,hr,hnone hr]
  | some r => simp only [listed,(h r hr).entriesOf hr rfl]

theorem listed_ask (x : Admission) (w : World) (id : Nat) :
    (x.ask w).2.listed id = w.listed id := by
  rcases x.ask_cases w with ⟨e,he⟩ | ⟨s,-,-,-,hask⟩
  · rw [he]
  have harenas : (x.admitted s w).sessions.map Session.arena = w.sessions.map Session.arena := by
    simp only [Admission.admitted,updateSession,Admission.sessions_made]
    exact map_modify_of_eq fun s _ => Session.arena_letIn _ _ s
  cases x with
  | createRegistry i =>
    obtain ⟨hnew,hold⟩ := listed_createRegistry (congrArg Prod.fst hask)
    by_cases hid : id = w.registries.length
    · have hnone : w.listed w.registries.length = [] := by simp [World.listed,entriesOf]
      rw [hid,hnone]
      exact hnew
    · exact hold id hid
  | createAgent _ _ _ | addAgent _ _ | addRegistry _ _ | addClient _ _ =>
    rw [hask]
    exact listed_of_arenas harenas rfl id

theorem tools_append (log new : List Intake) :
    tools id (log ++ new) = tools id log ++ tools id new := List.filterMap_append

@[simp] theorem tools_intake (x : Admission) (w : World) (id : Nat) :
    tools id (x.intake w) = [] := by
  unfold Admission.intake
  split <;> rfl

/-- A registry lists the tools that it took, of those with one name the first. -/
theorem Chronicle.listed (h : Chronicle log w) (hserving : Serving id w) :
    w.listed id = (tools id log).foldl keep [] := by
  induction h with
  | empty host files workingDir now => simp [World.listed,entriesOf,World.empty,tools]
  | @openSession log w h label config bus ih =>
    have hw := h.reachable.orderly
    have hlast := (step_orderly (.openSession label config bus) hw).2
    rw [← ih (hserving.before hlast)]
    refine listed_of_untouched ?_ fun r hr => ?_
    · unfold World.openSession
      split <;> exact fun hnone => hnone
    · exact untouched_openSession label config bus (Nat.ne_of_lt (hw.registries.owned _ r hr))
  | @ask log w h x there ih =>
    have hlast := (reaches_orderly (x.ask_reaches there) h.reachable.orderly).2
    rw [listed_ask,ih (hserving.before hlast),tools_append,tools_intake,List.append_nil]
  | @addTool log w h k tool ih =>
    have hlast := (step_orderly (.addTool k tool) h.reachable.orderly).2
    rw [listed_addTool h.reachable.legible,ih (hserving.before hlast),tools_append]
    unfold toolIntake
    cases (World.addTool k tool w).1 with
    | error e => simp [Except.isOk,Except.toBool,tools]
    | ok u => by_cases hk : k = id <;> simp [Except.isOk,Except.toBool,tools,Intake.tool?,hk]
  | @close log w h j ih =>
    have hw := h.reachable.orderly
    obtain ⟨-,hmoved⟩ := close_orderly [] w j hw
    have hbefore := hserving.before hmoved.lasting
    rw [← ih hbefore]
    refine listed_of_untouched ?_ fun r hr => ?_
    · have hlen : (w.close j).registries.length = w.registries.length := by
        simpa using congrArg List.length hmoved.registries
      rw [List.getElem?_eq_none_iff,List.getElem?_eq_none_iff,hlen]
      exact fun hlt => hlt
    · obtain ⟨r',hr',hsession⟩ := hmoved.lasting.registries id r hr
      have hopen := hserving r' hr'
      rw [hsession] at hopen
      exact (spared_closing.close hw j r.session).untouched (hopen.trans (hbefore r hr).symm)
  | @count log w h agent n ih => exact ih hserving
  | @elsewhere log w w' h sessions agents registries arenas ih =>
    have hlast := (step_orderly (.elsewhere sessions agents registries arenas)
      h.reachable.orderly).2
    rw [← ih (hserving.before hlast)]
    exact listed_of_arenas (congrArg _ sessions) registries id

end Listed

end ReasonAct.World
