import ReasonAct.Proofs.Run.Attached
import ReasonAct.Proofs.World.Code
set_option autoImplicit false

namespace ReasonAct

variable {memory : Nat}

mutual

/-- A tool whose code leaves a memory alone. -/
inductive Tool.Spares (memory : Nat) : Tool → Prop where
  | builtin (b : Builtin) : Tool.Spares memory (.builtin b)
  | closure (name description : String) (schema : Json) (hooks : List Hook) (reply : Reply)
      (h : ∀ x ∈ hooks, Hook.Spares memory x) :
      Tool.Spares memory (.closure name description schema hooks reply)
  | remote (client : Nat) (info : RemoteToolInfo) : Tool.Spares memory (.remote client info)

inductive Hook.Spares (memory : Nat) : Hook → Prop where
  | close (session : Nat) : Hook.Spares memory (.close session)
  | addTool (registry : Nat) (tool : Tool) (h : Tool.Spares memory tool) :
      Hook.Spares memory (.addTool registry tool)
  | append (other : Nat) (m : Message) (h : other ≠ memory) : Hook.Spares memory (.append other m)
  | clearMemory (other : Nat) (h : other ≠ memory) : Hook.Spares memory (.clearMemory other)
  | disconnect (client : Nat) : Hook.Spares memory (.disconnect client)
  | resetAgent (agent : Nat) : Hook.Spares memory (.resetAgent agent)

end

namespace World

variable {w w' : World}

/-- The memory is there, and no code of a script or a registered tool touches it. -/
structure Spares (memory : Nat) (w : World) : Prop where
  made : memory < w.memories.length
  scripts : ∀ s ∈ w.scripts, ∀ p ∈ s.preludes, ∀ x ∈ p.hooks, Hook.Spares memory x
  registries : ∀ r ∈ w.registries, ∀ e ∈ r.entries, Tool.Spares memory e.tool

/-- From `w` to `w'` the memory is left alone, by code that goes on to leave it alone. -/
structure Kept (memory : Nat) (w w' : World) : Prop where
  spares : w'.Spares memory
  same : w'.memories[memory]? = w.memories[memory]?

theorem Kept.refl (h : w.Spares memory) : Kept memory w w := ⟨h,rfl⟩

theorem Kept.trans {w₁ w₂ w₃ : World} (h : Kept memory w₁ w₂) (hn : Kept memory w₂ w₃) :
    Kept memory w₁ w₃ := ⟨hn.spares,hn.same.trans h.same⟩

theorem Kept.of_frame (h : w.Spares memory) (hm : w'.memories = w.memories)
    (hs : w'.scripts = w.scripts) (hr : w'.registries = w.registries) : Kept memory w w' :=
  ⟨⟨hm ▸ h.made,hs ▸ h.scripts,hr ▸ h.registries⟩,by rw [hm]⟩

theorem foldl_kept {α : Type} (f : World → α → World) (xs : List α)
    (hf : ∀ w x, x ∈ xs → w.Spares memory → Kept memory w (f w x)) (h : w.Spares memory) :
    Kept memory w (xs.foldl f w) := by
  induction xs generalizing w with
  | nil => exact .refl h
  | cons x xs ih =>
    have hx := hf w x (by simp) h
    exact hx.trans (ih (fun w y hy => hf w y (by simp [hy])) hx.spares)

theorem forall_mem_modify {α : Type} {P : α → Prop} {f : α → α} {xs : List α} (i : Nat)
    (h : ∀ x ∈ xs, P x) (hf : ∀ x ∈ xs, P (f x)) : ∀ x ∈ xs.modify i f, P x := by
  intro x hx
  obtain ⟨j,hj⟩ := List.getElem?_of_mem hx
  rw [List.getElem?_modify] at hj
  split at hj
  · obtain ⟨y,hy,rfl⟩ := Option.map_eq_some_iff.mp hj
    exact hf y (List.mem_of_getElem? hy)
  · obtain ⟨y,hy,rfl⟩ := Option.map_eq_some_iff.mp hj
    exact h y (List.mem_of_getElem? hy)

theorem updateSession_kept (h : w.Spares memory) (f : Session → Session) (i : Nat) :
    Kept memory w (w.updateSession f i) := .of_frame h rfl rfl rfl

theorem updateAgent_kept (h : w.Spares memory) (f : Agent → Agent) (i : Nat) :
    Kept memory w (w.updateAgent f i) := .of_frame h rfl rfl rfl

theorem updateClient_kept (h : w.Spares memory) (f : Client → Client) (i : Nat) :
    Kept memory w (w.updateClient f i) := .of_frame h rfl rfl rfl

theorem publish_kept (h : w.Spares memory) (bus : Option Nat) (e : Event) :
    Kept memory w (w.publish bus e) := by cases bus <;> exact .of_frame h rfl rfl rfl

theorem updateRegistry_kept (h : w.Spares memory) {f : Registry → Registry} (i : Nat)
    (hf : ∀ r ∈ w.registries, ∀ e ∈ (f r).entries, Tool.Spares memory e.tool) :
    Kept memory w (w.updateRegistry f i) :=
  ⟨⟨h.made,h.scripts,forall_mem_modify i h.registries hf⟩,rfl⟩

theorem updateScript_kept (h : w.Spares memory) {f : Script → Script} (i : Nat)
    (hf : ∀ s ∈ w.scripts, ∀ p ∈ (f s).preludes, ∀ x ∈ p.hooks, Hook.Spares memory x) :
    Kept memory w (w.updateScript f i) :=
  ⟨⟨h.made,forall_mem_modify i h.scripts hf,h.registries⟩,rfl⟩

theorem updateMemory_kept (h : w.Spares memory) (f : Memory → Memory) {other : Nat}
    (ho : other ≠ memory) : Kept memory w (w.updateMemory f other) :=
  ⟨⟨by simpa [updateMemory] using h.made,h.scripts,h.registries⟩,
    List.getElem?_modify_ne f w.memories ho⟩

theorem disconnectBy_kept {close : Nat → World → World}
    (hc : ∀ i w, w.Spares memory → Kept memory w (close i w)) (h : w.Spares memory) (client : Nat) :
    Kept memory w (disconnectBy close client w) := by
  have hu := updateClient_kept h
    (fun c => { c with connected := false, log := c.log ++ ["disconnect"] }) client
  exact hu.trans (foldl_kept _ _ (fun w i _ hw => hc i w hw) hu.spares)

theorem tearDown_kept (h : w.Spares memory) (s : Session) (i : Nat) :
    Kept memory w (tearDown s i w) := by
  have ha := foldl_kept (fun w a => w.updateAgent (fun a => { a with shutDown := true }) a)
    s.agents (fun w a _ hw => updateAgent_kept hw _ a) h
  have hr := foldl_kept
    (fun w r => w.updateRegistry (fun r => { r with released := true, entries := [] }) r)
    s.registries (fun w r _ hw => updateRegistry_kept hw r (by simp)) ha.spares
  exact (ha.trans hr).trans (updateSession_kept hr.spares _ i)

theorem closeBy_kept {close : Nat → World → World}
    (hc : ∀ i w, w.Spares memory → Kept memory w (close i w)) (h : w.Spares memory) (i : Nat) :
    Kept memory w (closeBy close i w) := by
  unfold closeBy
  split
  · exact .refl h
  split
  · exact .refl h
  rename_i s _ _
  have hs := updateSession_kept h
    (fun s => { s with closed := true, clients := [], agents := [], registries := [] }) i
  have hd := foldl_kept (fun w c => disconnectBy close c w) s.clients
    (fun w c _ hw => disconnectBy_kept hc hw c) hs.spares
  have ht := tearDown_kept hd.spares s i
  exact ((hs.trans hd).trans ht).trans (publish_kept ht.spares _ _)

theorem closeWithin_kept (depth i : Nat) (h : w.Spares memory) :
    Kept memory w (closeWithin depth i w) := by
  -- A session may close others through its clients; the depth bounds how far this goes.
  induction depth generalizing i w with
  | zero => exact .refl h
  | succ depth ih => exact closeBy_kept (fun i w hw => ih i hw) h i

theorem close_kept (h : w.Spares memory) (i : Nat) : Kept memory w (w.close i) :=
  closeWithin_kept _ i h

theorem copyEntry_tool {host : Arena.Host} {tool : Tool} {schema : String} {a a' : SharedArena}
    {entry : Entry} (h : copyEntry host tool schema a = (.ok entry, a')) : entry.tool = tool := by
  unfold copyEntry at h
  repeat' split at h
  all_goals simp at h
  rw [← h.1]

theorem addTool_kept (h : w.Spares memory) (registry : Nat) {tool : Tool}
    (ht : Tool.Spares memory tool) : Kept memory w (w.addTool registry tool).2 := by
  unfold addTool
  split
  · exact .refl h
  split
  · exact .refl h
  split
  · exact .refl h
  split
  · exact .refl h
  rename_i r a _ _ _ schema _ _
  cases hc : copyEntry w.host tool schema a with
  | mk entry a' =>
    have hs := updateSession_kept h (fun s => { s with arena := a' }) r.session
    cases entry with
    | error e => exact hs
    | ok entry =>
      dsimp only
      split
      case isFalse => exact hs
      refine hs.trans (updateRegistry_kept hs.spares registry ?_)
      intro r hr e he
      rcases List.mem_append.mp he with he | he
      · exact hs.spares.registries r hr e he
      · rw [List.mem_singleton.mp he,copyEntry_tool hc]
        exact ht

theorem perform_kept (h : w.Spares memory) {x : Hook} (hx : Hook.Spares memory x) :
    Kept memory w (w.perform x) := by
  cases hx with
  | close session => exact close_kept h session
  | addTool registry tool ht => exact addTool_kept h registry ht
  | append other m ho =>
    simp only [perform]
    split
    · rename_i hm
      obtain ⟨-,mem,-,-,rfl⟩ := remember_updates hm
      exact updateMemory_kept h (fun _ => mem) ho
    · exact .refl h
  | clearMemory other ho => exact updateMemory_kept h Memory.clear ho
  | disconnect client => exact disconnectBy_kept (fun i w hw => close_kept hw i) h client
  | resetAgent agent => exact updateAgent_kept h _ agent

theorem performAll_kept (h : w.Spares memory) {hooks : List Hook}
    (hx : ∀ x ∈ hooks, Hook.Spares memory x) : Kept memory w (w.performAll hooks) :=
  foldl_kept perform hooks (fun _ x hm hw => perform_kept hw (hx x hm)) h

theorem execute_kept (h : w.Spares memory) {tool : Tool} (ht : Tool.Spares memory tool)
    (ctx : ToolContext) (arguments : String) :
    Kept memory w (execute tool ctx arguments w).2 := by
  cases ht with
  | builtin b => exact .refl h
  | closure name description schema hooks reply hx => exact performAll_kept h hx
  | remote client info =>
    show Kept memory w (callRemote client info.name arguments w).2
    unfold callRemote
    split
    · exact .refl h
    split
    · exact .refl h
    · exact updateClient_kept h _ client

theorem handler_spares (h : w.Spares memory) {registry : Nat} {name : String} {tool : Tool}
    (ht : w.handler? registry name = some tool) : Tool.Spares memory tool := by
  obtain ⟨e,he,rfl⟩ := Option.map_eq_some_iff.mp ht
  have hmem := List.mem_of_find?_eq_some he
  split at hmem
  · simp at hmem
  · rename_i r hr
    exact h.registries r (List.mem_of_getElem? hr) e hmem

theorem call_kept (h : w.Spares memory) (registry : Nat) (name arguments : String)
    (ctx : ToolContext) : Kept memory w (w.call registry name arguments ctx).2 := by
  unfold call
  split
  · exact .refl h
  split
  · exact .refl h
  · rename_i tool ht
    exact execute_kept h (handler_spares h ht) ctx arguments

def ProviderKeeps (memory : Nat) (p : Provider World) : Prop :=
  ∀ request limit w, w.Spares memory → Kept memory w (p request limit w).2

theorem callScript_keeps (id : Nat) : ProviderKeeps memory (callScript id) := by
  intro request limit w h
  have hpre : ∀ x ∈ (((w.scripts[id]?.map Script.preludes).getD []).headD ⟨[], 0⟩).hooks,
      Hook.Spares memory x := by
    cases hs : w.scripts[id]? with
    | none => simp
    | some s =>
      cases hp : s.preludes with
      | nil => simp [hp]
      | cons p ps => simpa [hp] using h.scripts s (List.mem_of_getElem? hs) p (by simp [hp])
  have ht := updateScript_kept h (f := fun s => { s with preludes := s.preludes.tail }) id
    (fun s hs p hp => h.scripts s hs p (List.mem_of_mem_tail hp))
  have hh := ht.trans (performAll_kept ht.spares hpre)
  unfold callScript
  dsimp only
  split
  · exact hh
  split
  · exact hh
  · rename_i s hs
    refine hh.trans (updateScript_kept hh.spares id ?_)
    have hkeep : (s.next request).2.preludes = s.preludes := by
      unfold Script.next
      cases s.outcomes <;> rfl
    intro _ _ p hp
    rw [hkeep] at hp
    exact hh.spares.scripts s (List.mem_of_getElem? hs) p hp

theorem tryEach_kept (request : ChatRequest) (limit : Option Nat)
    {entries : List (Fallback.Entry World)} (he : ∀ e ∈ entries, ProviderKeeps memory e.provider)
    (last : ProviderError) (elapsed : Nat) (h : w.Spares memory) :
    Kept memory w (Fallback.tryEach request limit entries last elapsed w).2 := by
  induction entries generalizing last elapsed w with
  | nil => exact .refl h
  | cons e entries ih =>
    have he' : ∀ e ∈ entries, ProviderKeeps memory e.provider := fun e h => he e (by simp [h])
    unfold Fallback.tryEach
    dsimp only
    generalize hlim : Fallback.atMost _ _ = ms
    have hk := he e (by simp) request (some ms) w h
    split
    · rename_i r t s hs
      rw [hs] at hk
      exact hk
    · rename_i err t s hs
      rw [hs] at hk
      split
      · exact hk.trans (ih he' _ _ hk.spares)
      · exact hk
    · rename_i s hs
      rw [hs] at hk
      split
      · exact hk
      · exact hk.trans (ih he' _ _ hk.spares)

mutual

theorem provider_keeps : ∀ route : Route, ProviderKeeps memory (provider route)
  | .script id _ => by
    unfold provider
    exact callScript_keeps id
  | .fallback _ entries => by
    unfold provider
    intro request limit w h
    exact tryEach_kept request limit (providers_keep entries) _ _ h

theorem providers_keep : ∀ entries : List (Route × Nat),
    ∀ e ∈ providers entries, ProviderKeeps memory e.provider
  | [] => by simp [providers]
  | (route, timeoutMs) :: rest => by
    have hroute := provider_keeps route
    have hrest := providers_keep rest
    simp only [providers,List.mem_cons,forall_eq_or_imp]
    exact ⟨hroute,hrest⟩

end

theorem chat_kept (h : w.Spares memory) (route : Route) (request : ChatRequest) :
    Kept memory w (chat route request w).2 := by
  have hk := provider_keeps route request none w h
  unfold chat
  split
  · rename_i outcome t s hs
    rw [hs] at hk
    exact hk
  · rename_i s hs
    rw [hs] at hk
    exact hk

def memoryAt (memory : Nat) (w : World) : Memory := w.memories[memory]?.getD default

theorem Kept.memoryAt_eq (h : Kept memory w w') : memoryAt memory w' = memoryAt memory w := by
  simp [memoryAt,h.same]

theorem collaborators_attached (w₀ : World) (id : Nat) {a : Agent} (ha : a.memory = some memory) :
    (w₀.collaborators id a).Attached (memoryAt memory) (World.Spares memory) where
  history := by
    intro w h
    simp [collaborators,ha,memoryAt,List.getElem?_eq_getElem h.made]
  remember := by
    intro w h m
    simp only [collaborators,ha]
    cases hr : w.remember memory m with
    | error e => exact ⟨h,rfl,rfl⟩
    | ok w' =>
      obtain ⟨mem,mem',hmem,hm,rfl⟩ := remember_updates hr
      refine ⟨⟨by simpa [updateMemory] using h.made,h.scripts,h.registries⟩,rfl,?_⟩
      simpa [memoryAt,updateMemory,hmem] using hm
  reserve h m n := ⟨h,rfl,rfl⟩
  chat h request := by
    have hk := chat_kept h a.route request
    exact ⟨hk.spares,hk.memoryAt_eq⟩
  answer := by
    intro w h call
    cases hreg : a.registry with
    | none => simp [collaborators,hreg,h]
    | some r =>
      have hk := call_kept h r call.name call.arguments (w₀.contextOf a)
      simpa [collaborators,hreg] using ⟨hk.spares,hk.memoryAt_eq⟩
  count h n := by
    have hk := updateAgent_kept h (fun a => { a with iterations := n }) id
    exact ⟨hk.spares,rfl,hk.memoryAt_eq⟩
  publish := by
    intro w h e
    have hk := publish_kept h a.bus e
    refine ⟨hk.spares,?_,hk.memoryAt_eq⟩
    cases hb : a.bus with
    | none => simp [collaborators,publish,hb]
    | some i => simp [collaborators,publish,hb]; rfl

end World
end ReasonAct
