import ReasonAct.Proofs.World.Listing
/-!
The life of a session. It is open or closed with all that was made under it; the first closing takes
everything down in order, and from its beginning on nothing more is let in.
-/
set_option autoImplicit false

namespace ReasonAct.World

variable {w w' : World}

section Tracks

def Tracks (w : World) : Prop :=
  ∀ (i : Nat) (s : Session), w.sessions[i]? = some s →
    s.clients.Nodup ∧ s.agents.Nodup ∧ s.registries.Nodup

theorem nodup_track {is : List Nat} (h : is.Nodup) (i : Nat) : (track i is).Nodup := by
  unfold track
  split
  · exact h
  · rename_i hi
    exact List.concat_eq_append ▸ List.Nodup.concat hi h

theorem Tracks.modified (h : Tracks w) {f : Session → Session} {i : Nat}
    (hs : w'.sessions = w.sessions.modify i f)
    (hf : ∀ s : Session, s.clients.Nodup ∧ s.agents.Nodup ∧ s.registries.Nodup →
      (f s).clients.Nodup ∧ (f s).agents.Nodup ∧ (f s).registries.Nodup) : Tracks w' := by
  intro k s' hs'
  rw [hs,getElem?_modify_map] at hs'
  obtain ⟨s,hat,rfl⟩ := Option.map_eq_some_iff.mp hs'
  split
  · exact hf s (h k s hat)
  · exact h k s hat

theorem tracks_closing : Closing fun _ w w' => Tracks w → Tracks w' where
  refl _ _ := id
  trans h hn := fun hw => hn (h hw)
  client _ _ _ _ := id
  whole := by
    intro busy w i s w' _ _ _ _ h hw
    have hw' := h (hw.modified (f := marked) rfl (by simp [marked]))
    intro k s' hs'
    rw [sessions_publish,getElem?_sessions_tearDown] at hs'
    obtain ⟨s₀,hs₀,rfl⟩ := Option.map_eq_some_iff.mp hs'
    have htracked := hw' k s₀ hs₀
    split <;> exact htracked

theorem map_sessions_addTool {β : Type} (g : Session → β)
    (hg : ∀ (s : Session) (arena : SharedArena), g { s with arena := arena } = g s) (id : Nat)
    (tool : Tool) (w : World) : (w.addTool id tool).2.sessions.map g = w.sessions.map g := by
  unfold addTool
  split
  · rfl
  split
  · rfl
  split
  · rfl
  split
  · rfl
  dsimp only
  split
  · exact map_modify_of_eq fun s _ => hg s _
  split <;> exact map_modify_of_eq fun s _ => hg s _

theorem step_tracks (h : Step w w') (ho : Orderly [] w) (hw : Tracks w) : Tracks w' := by
  cases h with
  | openSession label config bus =>
    unfold openSession
    split
    · exact hw
    · intro i s hs
      rcases getElem?_concat_cases hs with hs | ⟨-,rfl⟩
      · exact hw i s hs
      · simp
  | createRegistry session =>
    rcases w.createRegistry_cases session with ⟨e,h⟩ | h <;> rw [h]
    · exact hw
    · exact hw.modified rfl fun s hs => ⟨hs.1,hs.2.1,nodup_track hs.2.2 _⟩
  | createAgent session o route made =>
    rcases w.createAgent_cases session o route with h | ⟨a,h⟩ <;>
      rw [h]
    · exact hw
    · exact hw.modified rfl fun s hs => ⟨hs.1,nodup_track hs.2.1 _,hs.2.2⟩
  | addTool registry tool =>
    intro i s' hs'
    obtain ⟨s,hs,heq⟩ := getElem?_of_map_eq
      (map_sessions_addTool (fun s => (s.clients, s.agents, s.registries)) (fun _ _ => rfl) registry
        tool w) hs'
    simp only [Prod.mk.injEq] at heq
    rw [← heq.1,← heq.2.1,← heq.2.2]
    exact hw i s hs
  | trackAgent session agent made h =>
    rw [(trackAgent_ok h).2.2]
    exact hw.modified rfl fun s hs => ⟨hs.1,nodup_track hs.2.1 _,hs.2.2⟩
  | trackRegistry session registry made h =>
    rw [(trackRegistry_ok h).2.2]
    exact hw.modified rfl fun s hs => ⟨hs.1,hs.2.1,nodup_track hs.2.2 _⟩
  | trackClient session client h =>
    rw [(trackClient_ok h).2]
    exact hw.modified rfl fun s hs => ⟨nodup_track hs.1 _,hs.2⟩
  | close session => exact tracks_closing.close ho session hw
  | count agent n => exact hw
  | elsewhere sessions agents registries arenas =>
    intro i s hs
    exact hw i s (sessions ▸ hs)

theorem Reachable.tracks (h : w.Reachable) : Tracks w :=
  h.induct (fun _ _ _ _ => by simp [Tracks,World.empty]) step_tracks

end Tracks

theorem stats_eq_zero_iff (hw : Legible w) {i : Nat} {s : Session}
    (hs : w.sessions[i]? = some s) : s.arena.stats = .zero ↔ s.arena.isDestroyed = true := by
  cases hw i s hs with
  | gone hn => simp [SharedArena.stats,SharedArena.isDestroyed,hn]
  | there a es ha hold =>
    have hpos : 0 < a.stats.blockCount := Nat.zero_lt_of_lt hold.current
    constructor
    · intro hzero
      have hstats : a.stats = .zero := by simpa [SharedArena.stats,ha] using hzero
      rw [hstats] at hpos
      contradiction
    · simp [SharedArena.isDestroyed,ha]

/-- A registry that was released. -/
structure Gone (code : Code) (id : Nat) (w : World) : Prop where
  names : w.toolNames id = []
  find : ∀ name, w.find? id name = none
  add : ∀ tool, w.addTool id tool = (.error released, w)
  call : ∀ name arguments ctx, callBy code id name arguments ctx w = (.error released, w)

/-- A registry in use. -/
structure Serves (code : Code) (id : Nat) (w : World) : Prop where
  add : ∀ tool e, (w.addTool id tool).1 = .error e → e.code ≠ .invalidState
  call : ∀ name arguments ctx, ∃ output, (callBy code id name arguments ctx w).1 = .ok output

theorem enlist_error {refused? : List String → Option String} {room : Nat → Bool} {tool : Tool}
    {l : List ToolDescriptor} {e : Error} (h : enlist refused? room tool l = .error e) :
    e.code = .invalidArgument ∨ e.code = .outOfMemory := by
  unfold enlist at h
  split at h
  · exact .inl (Except.error.inj h ▸ rfl)
  split at h
  · exact .inl (Except.error.inj h ▸ rfl)
  split at h
  · contradiction
  split at h
  · exact .inr (Except.error.inj h ▸ rfl)
  split at h
  · contradiction
  · exact .inr (Except.error.inj h ▸ rfl)

section Registry

variable (hw : w.Reachable) (code : Code) {id : Nat} {r : Registry}
  (hr : w.registries[id]? = some r)

include hw hr

theorem gone_of_closed (hc : w.isClosed r.session = true) : Gone code id w := by
  have hlive := live?_eq hw.orderly hr
  rw [if_pos hc] at hlive
  obtain ⟨s,hs⟩ : ∃ s, w.sessions[r.session]? = some s :=
    ⟨_,List.getElem?_eq_getElem (hw.orderly.registries.owned id r hr)⟩
  have hdestroyed : s.arena.isDestroyed = true := by
    rw [hw.orderly.arenas _ s hs (by simp)]
    simpa [isClosed,hs] using hc
  have hentries : r.entries = [] := by
    cases hw.legible _ s hs with
    | there a es ha => simp [SharedArena.isDestroyed,ha] at hdestroyed
    | gone _ hempty => exact hempty id r hr rfl
  refine ⟨?_,?_,?_,?_⟩
  · simp [toolNames,entriesOf,hr,hentries]
  · simp [find?,entriesOf,hr,hentries]
  · intro tool
    simp only [addTool,hlive]
  · exact callBy_closed hw.orderly code hr hc

theorem serves_of_open (hopen : w.isClosed r.session = false) : Serves code id w := by
  refine ⟨?_,callBy_open hw.orderly code hr hopen⟩
  intro tool e he
  have hlive := live?_eq hw.orderly hr
  rw [hopen] at hlive
  obtain ⟨arena,hlive⟩ : ∃ arena, w.live? id = .ok (r, arena) := by simpa using hlive
  have h := (addTool_enlists hw.legible hlive tool).2
  cases hl : enlist (arena.refused? w.host) (w.room .table) tool (w.listed id) with
  | error e' =>
    rw [hl] at h
    obtain rfl := Except.error.inj (h.1.symm.trans he)
    rcases enlist_error hl with hcode | hcode <;> simp [hcode]
  | ok l =>
    rw [hl] at h
    rw [h.1] at he
    contradiction

end Registry

section Operations

section Remote

variable {P : World → Prop} (h : P w)

include h

theorem addWhileOk_induct {id : Nat} (add : ∀ {v} tool, P v → P (addTool id tool v).2)
    (tools : List Tool) : P (addWhileOk id tools w).2 := by
  induction tools generalizing w with
  | nil => exact h
  | cons tool tools ih =>
    have hadd := add tool h
    unfold addWhileOk
    split
    · rename_i heq
      rwa [heq] at hadd
    · rename_i heq
      rw [heq] at hadd
      exact ih hadd

theorem connect_induct {client : Nat} (mark : ∀ {v} f, P v → P (updateClient f client v)) :
    P (w.connect client).2 := by
  unfold connect
  split
  · exact h
  have hlogged : P (log "connect" client w) := mark _ h
  dsimp only
  split
  · exact hlogged
  · split
    · exact hlogged
    · exact mark _ hlogged

theorem listTools_induct {client : Nat} (mark : ∀ {v} f, P v → P (updateClient f client v)) :
    P (w.listTools client).2 := by
  unfold listTools
  split
  · exact h
  · exact mark _ h

theorem addRemoteTools_induct {id session client : Nat}
    (track : ∀ {r a w'}, w.live? id = .ok (r, a) → session = r.session →
      w.trackClient session client = .ok w' → P w')
    (mark : ∀ {v} f, P v → P (updateClient f client v))
    (add : ∀ {v} tool, P v → P (addTool id tool v).2) :
    P (w.addRemoteTools id session client).2 := by
  unfold addRemoteTools
  split
  · exact h
  rename_i hlive
  split
  · exact h
  rename_i hsession
  split
  · exact h
  rename_i w₁ htrack
  have htracked : P w₁ := track hlive (by simpa using hsession) htrack
  dsimp only
  generalize hjoin : (if (w₁.clients[client]?.map Client.connected).getD false then
    ((.ok (), w₁) : Except Error Unit × World) else w₁.connect client) = joined
  have hjoined : P joined.2 := by
    rw [← hjoin]
    split
    · exact htracked
    · exact connect_induct htracked mark
  split
  · exact hjoined
  have hlisted := listTools_induct hjoined mark
  split
  · rename_i hlist
    rwa [hlist] at hlisted
  rename_i infos w₂ hlist
  rw [hlist] at hlisted
  have hadded := addWhileOk_induct hlisted add (infos.map (Tool.remote client))
  split
  · rename_i hadd
    rwa [hadd] at hadded
  · rename_i hadd
    rwa [hadd] at hadded

end Remote

theorem addRemoteTools_reaches (id session client : Nat) (w : World) :
    Reaches w (w.addRemoteTools id session client).2 :=
  addRemoteTools_induct .refl (fun _ _ htrack => .single (.trackClient session client htrack))
    (fun _ hv => hv.trans (elsewhere_reaches rfl rfl rfl rfl))
    (fun tool hv => hv.tail (.addTool id tool))

end Operations

/-- What was made under a session is of use exactly while it is open. -/
structure Settled (code : Code) (w : World) : Prop where
  arenas : ∀ (i : Nat) (s : Session), w.sessions[i]? = some s →
    s.arena.isDestroyed = s.closed ∧ (s.arena.stats = .zero ↔ s.closed = true)
  agents : ∀ (id : Nat) (a : Agent), w.agents[id]? = some a → a.shutDown = w.isClosed a.session
  registries : ∀ (id : Nat) (r : Registry), w.registries[id]? = some r →
    r.released = w.isClosed r.session ∧
    if w.isClosed r.session then Gone code id w else Serves code id w

theorem Reachable.settled (hw : w.Reachable) (code : Code) : Settled code w where
  arenas := by
    intro i s hs
    have harena := hw.orderly.arenas i s hs (by simp)
    exact ⟨harena,harena ▸ stats_eq_zero_iff hw.legible hs⟩
  agents := fun _ _ ha => shutDown_eq hw.orderly ha
  registries := by
    intro id r hr
    obtain ⟨s,hs⟩ : ∃ s, w.sessions[r.session]? = some s :=
      ⟨_,List.getElem?_eq_getElem (hw.orderly.registries.owned id r hr)⟩
    have hreleased := (hw.orderly.registries.settled _ s hs (by simp) id r hr rfl).1
    refine ⟨by simpa [isClosed,hs] using hreleased,?_⟩
    cases hc : w.isClosed r.session with
    | true => exact gone_of_closed hw code hr hc
    | false => exact serves_of_open hw code hr hc

theorem ArenaIs.isClosed {i : Nat} {destroyed : Bool} (h : ArenaIs i destroyed w) :
    w.isClosed i = true := by
  obtain ⟨s,hs,hclosed,-⟩ := h
  simp [World.isClosed,hs,hclosed]

theorem Deed.Ready.isClosed {i : Nat} {d : Deed} (h : d.Ready i w) : w.isClosed i = true := by
  cases d <;> exact h.1.isClosed

/-- What the clients of sessions that are being closed can make of `w`, the sessions `busy` being
closed at the time: each can close sessions in its turn. -/
inductive Amid (w : World) : List Nat → World → Prop
  | outside : Amid w [] w
  | begin {busy : List Nat} {v : World} {i : Nat} {s : Session} (h : Amid w busy v)
      (hs : v.sessions[i]? = some s) (hopen : s.closed = false) :
      Amid w (i :: busy) (v.updateSession marked i)
  | client {busy : List Nat} {v : World} (h : Amid w busy v) (f : Client → Client) (c : Nat) :
      Amid w busy (v.updateClient f c)
  | close {busy : List Nat} {v : World} (h : Amid w busy v) (i : Nat) : Amid w busy (v.close i)

section Amid

variable {busy : List Nat} {v : World}

theorem Amid.inOrder (hw : w.Reachable) (h : Amid w busy v) : Orderly busy v ∧ Tracks v := by
  induction h with
  | outside => exact ⟨hw.orderly,hw.tracks⟩
  | begin _ hs _ ih => exact ⟨(marked_orderly ih.1 hs).1,ih.2.modified rfl (by simp [marked])⟩
  | client _ f c ih => exact ⟨(updateClient_outline f c).orderly ih.1,ih.2⟩
  | close _ i ih => exact ⟨(close_orderly _ _ i ih.1).1,tracks_closing.close ih.1 i ih.2⟩

theorem Amid.disconnect (h : Amid w busy v) (c : Nat) : Amid w busy (v.disconnect c) := by
  have hcloses (is : List Nat) {v : World} (h : Amid w busy v) :
      Amid w busy (is.foldl (fun v i => v.close i) v) := by
    induction is generalizing v with
    | nil => exact h
    | cons i is ih => exact ih (h.close i)
  exact hcloses _ (h.client _ c)

end Amid

end ReasonAct.World
