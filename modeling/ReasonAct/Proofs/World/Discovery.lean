import ReasonAct.Proofs.World.Chronicle
/-!
Tools that a server offers. The session tracks the client before it is asked for anything, so that
closing the session disconnects it however far the discovery came; the registry takes the tools that
are offered in order, up to the first that it cannot take.
-/
set_option autoImplicit false

namespace ReasonAct

def Client.disconnected (n : Nat) (k : Client) : Client :=
  { k with connected := k.connected && n == 0, log := k.log ++ List.replicate n "disconnect" }

theorem Client.disconnected_disconnected (m n : Nat) (k : Client) :
    (k.disconnected m).disconnected n = k.disconnected (m+n) := by
  have hconnected : (k.connected && m == 0 && n == 0) = (k.connected && m+n == 0) := by
    cases m <;> cases n <;> simp
  simp [disconnected,hconnected,List.append_assoc]

namespace World

variable {w w' : World}

section Closing

def Calmed (w w' : World) : Prop :=
  ∀ (c : Nat) (k : Client), w.clients[c]? = some k →
    ∃ n, w'.clients[c]? = some (k.disconnected n)

theorem Calmed.trans {w₁ w₂ w₃ : World} (h : Calmed w₁ w₂) (hn : Calmed w₂ w₃) : Calmed w₁ w₃ := by
  intro c k hk
  obtain ⟨m,hm⟩ := h c k hk
  obtain ⟨n,hn⟩ := hn c _ hm
  exact ⟨m+n,k.disconnected_disconnected m n ▸ hn⟩

section Within

variable {close : Nat → World → World} (hclose : ∀ v i, Calmed v (close i v))

include hclose

end Within

end Closing

section Enrolling

variable {id i : Nat}

structure Fit (tool : Tool) : Prop where
  named : tool.name.isEmpty = false
  formed : isSchema tool.schema = true

structure Held (id i : Nat) (w : World) : Prop where
  reachable : w.Reachable
  owned : w.registries[id]?.map Registry.session = some i

structure Live (id i : Nat) (w : World) : Prop extends Held id i w where
  opened : w.isClosed i = false

theorem Held.reaches (h : Held id i w) (hreach : Reaches w w') : Held id i w' := by
  obtain ⟨r,hr,hsession⟩ := Option.map_eq_some_iff.mp h.owned
  obtain ⟨r',hr',hsession'⟩ := (reaches_orderly hreach h.reachable.orderly).2.registries id r hr
  exact ⟨h.reachable.reaches hreach,by simp [hr',hsession',hsession]⟩

theorem Held.live? (h : Held id i w) : ∃ r, w.registries[id]? = some r ∧ r.session = i ∧
    if w.isClosed i then w.live? id = .error released else ∃ a, w.live? id = .ok (r, a) := by
  obtain ⟨r,hr,rfl⟩ := Option.map_eq_some_iff.mp h.owned
  exact ⟨r,hr,rfl,live?_eq h.reachable.orderly hr⟩

theorem Live.live? (h : Live id i w) : ∃ r a, w.live? id = .ok (r, a) ∧ r.session = i := by
  obtain ⟨r,-,hsession,hlive⟩ := h.toHeld.live?
  rw [h.opened] at hlive
  obtain ⟨a,hlive⟩ := hlive
  exact ⟨r,a,hlive,hsession⟩

theorem Live.reaches (h : Live id i w) (hreach : Reaches w w')
    (hopen : w'.isClosed i = w.isClosed i) : Live id i w' :=
  ⟨h.toHeld.reaches hreach,hopen.trans h.opened⟩

/-- The registry took these tools, one after the other. Other registries took none, and no session
was closed. -/
structure Enrolled (id : Nat) (tools : List Tool) (w w' : World) : Prop where
  reaches : Reaches w w'
  listed : w'.listed id = tools.foldl keep (w.listed id)
  others : ∀ k ≠ id, w'.listed k = w.listed k
  closed : ∀ i, w'.isClosed i = w.isClosed i

theorem Enrolled.refl (id : Nat) (w : World) : Enrolled id [] w w :=
  ⟨.refl,rfl,fun _ _ => rfl,fun _ => rfl⟩

theorem Enrolled.trans {xs ys : List Tool} {w₁ w₂ w₃ : World} (h : Enrolled id xs w₁ w₂)
    (hn : Enrolled id ys w₂ w₃) : Enrolled id (xs ++ ys) w₁ w₃ where
  reaches := h.reaches.trans hn.reaches
  listed := by rw [hn.listed,h.listed,List.foldl_append]
  others k hk := (hn.others k hk).trans (h.others k hk)
  closed i := (hn.closed i).trans (h.closed i)

theorem clients_addTool (id : Nat) (tool : Tool) (w : World) :
    (w.addTool id tool).2.clients = w.clients := by
  unfold addTool
  split
  · rfl
  split
  · rfl
  split
  · rfl
  split
  · rfl
  dsimp only
  split
  · rfl
  split <;> rfl

end Enrolling

/-- What is at the other end of a client. It answers as it likes, and may do whatever can be done
from outside. -/
structure Peer where
  isConnected : World → Bool
  connect : World → Except Error Unit × World
  list : World → Except Error (List RemoteToolInfo) × World
  connect_reaches : ∀ w, Reaches w (connect w).2
  list_reaches : ∀ w, Reaches w (list w).2

def addRemoteToolsBy (peer : Peer) (client id session : Nat) (w : World) :
    Except Error Nat × World :=
  match w.live? id with
  | .error e => (.error e, w)
  | .ok (r, _) =>
    if session ≠ r.session then
      (.error (.invalidArgument "tool registry belongs to a different session"), w)
    else match w.trackClient session client with
      | .error e => (.error e, w)
      | .ok w =>
        let (joined, w) := if peer.isConnected w then (.ok (), w) else peer.connect w
        match joined with
        | .error e => (.error e, w)
        | .ok _ =>
          match peer.list w with
          | (.error e, w) => (.error e, w)
          | (.ok infos, w) =>
            let before := w.toolCount id
            match addWhileOk id (infos.map (Tool.remote client)) w with
            | (.error e, w) => (.error e, w)
            | (.ok _, w) => (.ok (w.toolCount id - before), w)

/-- The server that a client keeps in mind. -/
def ownPeer (client : Nat) : Peer where
  isConnected w := (w.clients[client]?.map Client.connected).getD false
  connect := World.connect client
  list := World.listTools client
  connect_reaches _ := connect_induct .refl fun _ hv => hv.trans (elsewhere_reaches rfl rfl rfl rfl)
  list_reaches _ := listTools_induct .refl fun _ hv => hv.trans (elsewhere_reaches rfl rfl rfl rfl)

theorem addRemoteTools_eq (id session client : Nat) (w : World) :
    w.addRemoteTools id session client = w.addRemoteToolsBy (ownPeer client) client id session :=
  rfl

namespace Peer

variable (peer : Peer)

def joined (w : World) : Except Error Unit × World :=
  if peer.isConnected w then (.ok (), w) else peer.connect w

def offered (w : World) : Except Error (List RemoteToolInfo) × World := peer.list (peer.joined w).2

def left (w : World) : World :=
  match (peer.joined w).1 with
  | .error _ => (peer.joined w).2
  | .ok _ => (peer.offered w).2

/-- What a peer does neither closes the session nor changes what the registry lists. -/
structure Discreet (id i : Nat) : Prop where
  connect : ∀ w, (peer.connect w).2.isClosed i = w.isClosed i ∧
    (peer.connect w).2.listed id = w.listed id
  list : ∀ w, (peer.list w).2.isClosed i = w.isClosed i ∧ (peer.list w).2.listed id = w.listed id

theorem left_induct {P : World → Prop} (connect : ∀ w, P w → P (peer.connect w).2)
    (list : ∀ w, P w → P (peer.list w).2) (h : P w) : P (peer.left w) := by
  have hjoined : P (peer.joined w).2 := by
    unfold joined
    split
    · exact h
    · exact connect w h
  unfold left
  split
  · exact hjoined
  · exact list _ hjoined

variable {peer} {id i : Nat}

theorem Discreet.left (h : peer.Discreet id i) (w : World) :
    (peer.left w).isClosed i = w.isClosed i ∧ (peer.left w).listed id = w.listed id :=
  peer.left_induct (P := fun v => v.isClosed i = w.isClosed i ∧ v.listed id = w.listed id)
    (fun v hv => ⟨(h.connect v).1.trans hv.1,(h.connect v).2.trans hv.2⟩)
    (fun v hv => ⟨(h.list v).1.trans hv.1,(h.list v).2.trans hv.2⟩) ⟨rfl,rfl⟩

end Peer

section Discovery

variable {client : Nat}

/-- The names that are not known, each once, in the order in which they are first offered. -/
def newNames (known : List String) (infos : List RemoteToolInfo) : List String :=
  ((infos.map RemoteToolInfo.name).filter (· ∉ known)).eraseDups

/-- A registry took the tools `infos` of a client. What it had already it has as before. -/
structure Took (id client : Nat) (infos : List RemoteToolInfo) (w w' : World) : Prop where
  names : w'.toolNames id = w.toolNames id ++ newNames (w.toolNames id) infos
  find : ∀ name, w'.find? id name = (w.find? id name).or
    ((infos.find? (·.name == name)).map fun info => described (.remote client info))
  handler : ∀ name, w'.handler? id name = (w.handler? id name).or
    ((infos.find? (·.name == name)).map (Tool.remote client))

theorem Took.count {id : Nat} {infos : List RemoteToolInfo} (h : Took id client infos w w')
    (hw' : w'.Reachable) :
    w'.toolCount id = (w.toolNames id).length + (newNames (w.toolNames id) infos).length := by
  rw [(hw'.shows id).count,← List.length_append,← h.names,(hw'.shows id).names,List.length_map]

section Live

variable {id i : Nat}

def tracking (client i : Nat) (w : World) : World :=
  w.updateSession (Session.letIn .client client) i

section Tracked

variable (h : Live id i w)

include h

theorem Live.session : ∃ s, w.sessions[i]? = some s ∧ s.closed = false := by
  obtain ⟨r,a,hlive,rfl⟩ := h.live?
  obtain ⟨-,⟨s,hs,-⟩,-⟩ := live?_there hlive
  exact ⟨s,hs,by simpa [isClosed,hs] using h.opened⟩

theorem Live.trackClient (client : Nat) : w.trackClient i client = .ok (tracking client i w) := by
  obtain ⟨s,hs,hopen⟩ := h.session
  simp [trackClient_eq,openSession?,hs,hopen,tracking]

theorem Live.tracking (client : Nat) : Reaches w (tracking client i w) ∧
    (World.tracking client i w).isClosed i = false ∧
    (World.tracking client i w).listed id = w.listed id ∧
    (World.tracking client i w).trackedBy .client i = track client (w.trackedBy .client i) := by
  obtain ⟨s,hs,-⟩ := h.session
  have harenas : (World.tracking client i w).sessions.map Session.arena =
      w.sessions.map Session.arena := map_modify_of_eq fun s _ => Session.arena_letIn _ _ s
  exact ⟨.single (.trackClient i client (h.trackClient client)),
    (isClosed_admitted (.addClient i client) s w i).trans h.opened,listed_of_arenas harenas rfl id,
    (trackedBy_admitted (x := .addClient i client) hs).trans (if_pos ⟨rfl,rfl⟩)⟩

theorem Live.addRemoteToolsBy_eq (peer : Peer) : addRemoteToolsBy peer client id i w =
    match (peer.joined (World.tracking client i w)).1 with
    | .error e => (.error e, (peer.joined (World.tracking client i w)).2)
    | .ok _ =>
      match peer.offered (World.tracking client i w) with
      | (.error e, u) => (.error e, u)
      | (.ok infos, u) =>
        match addWhileOk id (infos.map (Tool.remote client)) u with
        | (.error e, u') => (.error e, u')
        | (.ok _, u') => (.ok (u'.toolCount id - u.toolCount id), u') := by
  have htrack := h.trackClient client
  obtain ⟨r,a,hlive,rfl⟩ := h.live?
  simp only [addRemoteToolsBy,hlive,ne_eq,not_true_eq_false,if_false,htrack]
  rfl

end Tracked

section Offered

variable {peer : Peer} {v u u' : World} {infos : List RemoteToolInfo}
  (hconnected : (peer.joined v).1 = .ok ()) (hoffered : peer.offered v = (.ok infos, u))
  (hu : Held id i u) (hw : w.Reachable) (hsame : u.listed id = w.listed id)

include hconnected hoffered hu hw hsame

end Offered

variable (h : Live id i w) (peer : Peer)

include h

end Live

def asked (k : Client) : List String :=
  (if k.connected then [] else ["connect"]) ++
    if k.connected || k.connectError.isNone then ["list_tools"] else []

section Own

variable {v : World} {k : Client} (hk : v.clients[client]? = some k)

include hk

theorem joined_ownPeer : ((ownPeer client).joined v).1.isOk =
      (k.connected || k.connectError.isNone) ∧
    ∃ k', ((ownPeer client).joined v).2.clients[client]? = some k' ∧
      k'.log = k.log ++ if k.connected then [] else ["connect"] := by
  have hconnected : (ownPeer client).isConnected v = k.connected := by simp [ownPeer,hk]
  unfold Peer.joined
  rw [hconnected]
  cases k.connected with
  | true => exact ⟨rfl,k,hk,by simp⟩
  | false =>
    simp only [ownPeer,World.connect,hk,Bool.false_or,Bool.false_eq_true,if_false]
    cases k.connectError with
    | some e => exact ⟨rfl,by simp [log,updateClient,hk]⟩
    | none => cases k.connectNoop <;> exact ⟨rfl,by simp [log,updateClient,hk]⟩

theorem listTools_log : ∃ k', (v.listTools client).2.clients[client]? = some k' ∧
    k'.log = k.log ++ ["list_tools"] := by
  simp [listTools,hk,log,updateClient]

end Own

theorem clients_addWhileOk (id : Nat) (tools : List Tool) (w : World) :
    (addWhileOk id tools w).2.clients = w.clients :=
  addWhileOk_induct (P := fun v => v.clients = w.clients) rfl
    (fun {v} tool hv => (clients_addTool id tool v).trans hv) tools

theorem Live.asked {id i : Nat} (h : Live id i w) {k : Client} (hk : w.clients[client]? = some k) :
    ∃ k', (w.addRemoteTools id i client).2.clients[client]? = some k' ∧
      k'.log = k.log ++ asked k := by
  rw [addRemoteTools_eq,h.addRemoteToolsBy_eq]
  obtain ⟨hok,k₁,hk₁,hlog₁⟩ := joined_ownPeer (v := World.tracking client i w) hk
  split
  · rename_i e he
    rw [he] at hok
    have hnot : (k.connected || k.connectError.isNone) = false := hok.symm
    exact ⟨k₁,hk₁,by simp [World.asked,hlog₁,hnot]⟩
  rename_i he
  rw [he] at hok
  have hlisted : (k.connected || k.connectError.isNone) = true := hok.symm
  obtain ⟨k₂,hk₂,hlog₂⟩ := listTools_log hk₁
  have hlog : k₂.log = k.log ++ World.asked k := by simp [World.asked,hlog₂,hlog₁,hlisted]
  have hoffered :
      ((ownPeer client).offered (World.tracking client i w)).2.clients[client]? = some k₂ := hk₂
  split
  · rename_i heq
    rw [heq] at hoffered
    exact ⟨k₂,hoffered,hlog⟩
  · rename_i infos u heq
    rw [heq] at hoffered
    have hadded := clients_addWhileOk id (infos.map (Tool.remote client)) u
    rw [← hadded] at hoffered
    split <;> (rename_i hadd; rw [hadd] at hoffered; exact ⟨k₂,hoffered,hlog⟩)

end Discovery

end World
end ReasonAct
