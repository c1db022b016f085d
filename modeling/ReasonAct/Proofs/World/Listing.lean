import ReasonAct.Proofs.World.Closed
import ReasonAct.Proofs.World.Legible
set_option autoImplicit false

namespace ReasonAct.World

variable {w w' : World}

theorem Reachable.induct {P : World → Prop}
    (hempty : ∀ host files workingDir now, P (World.empty host files workingDir now))
    (hstep : ∀ {w w' : World}, Step w w' → Orderly [] w → P w → P w') (h : w.Reachable) : P w := by
  obtain ⟨host,files,workingDir,now,hreach⟩ := h
  induction hreach with
  | refl => exact hempty host files workingDir now
  | tail hreach h ih => exact hstep h (Reachable.orderly ⟨host,files,workingDir,now,hreach⟩) ih

theorem Reachable.legible (h : w.Reachable) : Legible w :=
  h.induct (fun _ _ _ _ => by simp [Legible,World.empty]) step_legible

/-- All that a registry shows of itself is the list `ds`. -/
structure Shows (w : World) (id : Nat) (ds : List ToolDescriptor) : Prop where
  names : w.toolNames id = ds.map ToolDescriptor.name
  distinct : (w.toolNames id).Nodup
  count : w.toolCount id = ds.length
  find : ∀ name, w.find? id name = ds.find? (·.name == name)
  found : ∀ name, (w.find? id name).isSome = true ↔ name ∈ w.toolNames id
  handler : ∀ name, w.handler? id name = (ds.find? (·.name == name)).map ToolDescriptor.tool
  definitions : w.definitions id = ds.map ToolDescriptor.definition
  functions : w.functions? id = if ds.isEmpty then none
    else some (Json.array (ds.map fun d => d.definition.function)).text

section Shows

variable {s : SharedArena} {entries : List Entry} {ds : List ToolDescriptor}

theorem names_of_described (h : List.Forall₂ (fun e d => describe s e = some d) entries ds) :
    entries.filterMap (fun e => s.readText e.name) = ds.map ToolDescriptor.name := by
  induction h with
  | nil => rfl
  | cons hd _ ih => rw [List.map_cons,← ih]; exact List.filterMap_cons_some (read_of_described hd).1

theorem find_of_described (h : List.Forall₂ (fun e d => describe s e = some d) entries ds)
    (name : String) : (entries.find? (isNamed s name)).bind (describe s) =
        ds.find? (·.name == name) ∧
      (entries.find? (isNamed s name)).map Entry.tool =
        (ds.find? (·.name == name)).map ToolDescriptor.tool := by
  induction h with
  | nil => exact ⟨rfl,rfl⟩
  | @cons e d _ _ hd _ ih =>
    rw [List.find?_cons,List.find?_cons,isNamed_eq hd]
    cases d.name == name with
    | true => exact ⟨hd,congrArg some (read_of_described hd).2⟩
    | false => exact ih

end Shows

/-- A registry shows its list, and nothing else. -/
theorem Reachable.shows (hw : w.Reachable) (id : Nat) : Shows w id (w.listed id) := by
  obtain ⟨hall,hdistinct⟩ := hw.legible.described (hw.orderly.registries.owned id)
  have hnames : w.toolNames id = (w.listed id).map ToolDescriptor.name := names_of_described hall
  have hfind (name : String) : w.find? id name = (w.listed id).find? (·.name == name) :=
    (find_of_described hall name).1
  refine ⟨hnames,hnames ▸ hdistinct,hall.length_eq,hfind,?_,?_,rfl,?_⟩
  · intro name
    rw [hfind,hnames,List.find?_isSome]
    simp
  · exact fun name => (find_of_described hall name).2
  · have hdefs : w.definitions id = (w.listed id).map ToolDescriptor.definition := rfl
    unfold functions?
    rw [hdefs]
    cases w.listed id <;> simp [Function.comp_def]

/-- Of tools with one name the first is kept. -/
def keep (l : List ToolDescriptor) (tool : Tool) : List ToolDescriptor :=
  if tool.name ∈ l.map ToolDescriptor.name then l else l ++ [described tool]

section Keep

variable {l l' : List ToolDescriptor} {tool : Tool}

theorem enlist_ok {refused? : List String → Option String} {room : Nat → Bool}
    (h : enlist refused? room tool l = .ok l') : l' = keep l tool := by
  unfold enlist at h
  unfold keep
  split at h
  · contradiction
  split at h
  · contradiction
  split at h
  · rename_i hname
    rw [if_pos hname]
    exact (Except.ok.inj h).symm
  · rename_i hname
    rw [if_neg hname]
    split at h
    · contradiction
    split at h
    · exact (Except.ok.inj h).symm
    · contradiction

theorem eraseDups_of_nodup {α : Type} [DecidableEq α] {xs : List α} (h : xs.Nodup) :
    xs.eraseDups = xs := by
  induction xs with
  | nil => rfl
  | cons x xs ih =>
    obtain ⟨hx,hxs⟩ := List.nodup_cons.mp h
    have hfilter : xs.filter (fun y => !y == x) = xs := by
      refine List.filter_eq_self.mpr ?_
      intro y hy
      have hne : y ≠ x := fun heq => hx (heq ▸ hy)
      simp [hne]
    rw [List.eraseDups_cons,hfilter,ih hxs]

theorem eraseDups_append_cons {α : Type} [DecidableEq α] {x : α} {xs : List α} (h : x ∈ xs)
    (ys : List α) : (xs ++ x :: ys).eraseDups = (xs ++ ys).eraseDups := by
  simp [List.eraseDups_append,List.removeAll,h]

theorem nodup_keep (h : (l.map ToolDescriptor.name).Nodup) (tool : Tool) :
    ((keep l tool).map ToolDescriptor.name).Nodup := by
  unfold keep
  split
  · exact h
  · rename_i hname
    exact distinct_concat h hname

theorem names_foldl_keep (tools : List Tool) (h : (l.map ToolDescriptor.name).Nodup) :
    (tools.foldl keep l).map ToolDescriptor.name =
      (l.map ToolDescriptor.name ++ tools.map Tool.name).eraseDups := by
  induction tools generalizing l with
  | nil => simp [eraseDups_of_nodup h]
  | cons tool tools ih =>
    rw [List.foldl_cons,ih (nodup_keep h tool),List.map_cons]
    unfold keep
    split
    · rename_i hname
      rw [eraseDups_append_cons hname]
    · rw [List.map_append,List.append_assoc]
      rfl

theorem find_foldl_keep (tools : List Tool) (l : List ToolDescriptor) (name : String) :
    (tools.foldl keep l).find? (·.name == name) = (l.find? (·.name == name)).or
      ((tools.find? (·.name == name)).map described) := by
  induction tools generalizing l with
  | nil => simp
  | cons tool tools ih =>
    rw [List.foldl_cons,ih,List.find?_cons]
    unfold keep
    split
    · rename_i hname
      cases hn : tool.name == name with
      | false => rfl
      | true =>
        obtain ⟨d,hd,hdn⟩ := List.mem_map.mp hname
        have hsome : (l.find? (·.name == name)).isSome = true :=
          List.find?_isSome.mpr ⟨d,hd,by rw [hdn]; exact hn⟩
        rw [Option.or_of_isSome hsome,Option.or_of_isSome hsome]
    · rw [List.find?_append,Option.or_assoc]
      have hone : [described tool].find? (·.name == name) =
          if tool.name == name then some (described tool) else none := by
        simp [List.find?_singleton,described]
      rw [hone]
      cases tool.name == name <;> rfl

end Keep

/-- A tool that was to be added to a registry, and what came of it. -/
structure Attempt where
  registry : Nat
  tool : Tool
  outcome : Except Error Unit

def attempts : List (Nat × Tool) → World → List Attempt × World
  | [], w => ([], w)
  | (id, tool) :: rest, w =>
    let (outcome, w) := w.addTool id tool
    let (log, w) := attempts rest w
    (⟨id, tool, outcome⟩ :: log, w)

/-- The tools that a registry took, those it had already included. -/
def accepted (id : Nat) (log : List Attempt) : List Tool :=
  (log.filter fun x => x.registry = id ∧ x.outcome.isOk).map Attempt.tool

def firstError : List Attempt → Except Error Unit
  | [] => .ok ()
  | x :: log =>
    match x.outcome with
    | .error e => .error e
    | .ok _ => firstError log

inductive Addition where
  | one (registry : Nat) (tool : Tool)
  | all (registry : Nat) (tools : List Tool)

namespace Addition

def perform (w : World) : Addition → Except Error Unit × World
  | .one id tool => w.addTool id tool
  | .all id tools => w.addAll id tools

def parts : Addition → List (Nat × Tool)
  | .one id tool => [(id, tool)]
  | .all id tools => tools.map fun tool => (id, tool)

end Addition

/-- What the machine has to give: memory to arenas, and room to tables that grow. -/
structure Grant where
  host : Arena.Host
  room : Store → Nat → Bool

def granted (g : Grant) (w : World) : World := { w with host := g.host, room := g.room }

/-- All that is tried in calls of registries, each with what the machine has to give at the time. -/
def attemptsOf : List (Grant × Addition) → World → List Attempt × World
  | [], w => ([], w)
  | (g, a) :: calls, w =>
    let (log, w) := attempts a.parts (w.granted g)
    let (more, w) := attemptsOf calls w
    (log ++ more, w)

section Attempts

theorem foldl_addTool (id : Nat) (tools : List Tool) (first : Except Error Unit) (w : World) :
    tools.foldl (fun (first, w) tool =>
      match first, w.addTool id tool with
      | .error e, (_, w) => (.error e, w)
      | .ok _, (r, w) => (r, w)) (first, w) =
    (match first with
      | .error e => .error e
      | .ok _ => firstError (attempts (tools.map fun tool => (id, tool)) w).1,
      (attempts (tools.map fun tool => (id, tool)) w).2) := by
  induction tools generalizing first w with
  | nil => cases first <;> rfl
  | cons tool tools ih =>
    simp only [List.foldl_cons,List.map_cons,attempts]
    cases first with
    | error e => exact ih (.error e) _
    | ok u => exact ih _ _

theorem addAll_eq (id : Nat) (tools : List Tool) (w : World) : w.addAll id tools =
    (firstError (attempts (tools.map fun tool => (id, tool)) w).1,
      (attempts (tools.map fun tool => (id, tool)) w).2) :=
  foldl_addTool id tools (.ok ()) w

theorem perform_eq (a : Addition) (w : World) :
    a.perform w = (firstError (attempts a.parts w).1, (attempts a.parts w).2) := by
  cases a with
  | one id tool =>
    simp only [Addition.perform,Addition.parts,attempts,firstError]
    cases h : w.addTool id tool with
    | mk outcome w' => cases outcome <;> rfl
  | all id tools => exact addAll_eq id tools w

theorem foldl_perform (calls : List (Grant × Addition)) (w : World) :
    calls.foldl (fun w x => (x.2.perform (w.granted x.1)).2) w = (attemptsOf calls w).2 := by
  induction calls generalizing w with
  | nil => rfl
  | cons x calls ih =>
    rw [List.foldl_cons,ih,perform_eq]
    rfl

theorem attempts_induct {P : World → Prop} {xs : List (Nat × Tool)}
    (add : ∀ {v}, ∀ x ∈ xs, P v → P (addTool x.1 x.2 v).2) (h : P w) : P (attempts xs w).2 := by
  induction xs generalizing w with
  | nil => exact h
  | cons x xs ih =>
    exact ih (fun y hy => add y (List.mem_cons_of_mem x hy)) (add x List.mem_cons_self h)

theorem attempts_reaches (xs : List (Nat × Tool)) (w : World) : Reaches w (attempts xs w).2 :=
  attempts_induct (fun x _ hv => hv.tail (.addTool x.1 x.2)) .refl

theorem Reachable.reaches (hw : w.Reachable) (h : Reaches w w') : w'.Reachable := by
  obtain ⟨host,files,workingDir,now,hreach⟩ := hw
  exact ⟨host,files,workingDir,now,hreach.trans h⟩

theorem listed_addTool (hw : Legible w) (id k : Nat) (tool : Tool) :
    (w.addTool id tool).2.listed k =
      if id = k ∧ (w.addTool id tool).1.isOk then keep (w.listed k) tool else w.listed k := by
  cases hlive : w.live? id with
  | error e => simp [addTool,hlive,Except.isOk,Except.toBool]
  | ok live =>
    have h := (addTool_enlists hw hlive tool).2
    cases he : enlist (live.2.refused? w.host) (w.room .table) tool (w.listed id) with
    | error e =>
      rw [he] at h
      simp [h.1,h.2 k,Except.isOk,Except.toBool]
    | ok l =>
      rw [he] at h
      obtain ⟨hok,hid,hothers⟩ := h
      by_cases hk : id = k
      · subst hk
        simp [hok,hid,enlist_ok he,Except.isOk,Except.toBool]
      · simp [hk,hothers k (Ne.symm hk)]

theorem listed_attempts (hw : w.Reachable) (xs : List (Nat × Tool)) (id : Nat) :
    (attempts xs w).2.listed id = (accepted id (attempts xs w).1).foldl keep (w.listed id) := by
  induction xs generalizing w with
  | nil => rfl
  | cons x xs ih =>
    obtain ⟨k,tool⟩ := x
    have hstep : (w.addTool k tool).2.Reachable := hw.reaches (.single (.addTool k tool))
    simp only [attempts]
    rw [ih hstep,listed_addTool hw.legible]
    by_cases hk : k = id
    · subst hk
      cases hok : (w.addTool k tool).1.isOk <;> simp [accepted,hok]
    · simp [accepted,hk]

theorem granted_reaches (g : Grant) (w : World) : Reaches w (w.granted g) :=
  .single (.elsewhere rfl rfl rfl rfl)

theorem attemptsOf_reaches (calls : List (Grant × Addition)) (w : World) :
    Reaches w (attemptsOf calls w).2 := by
  induction calls generalizing w with
  | nil => exact .refl
  | cons x calls ih =>
    exact (granted_reaches x.1 w).trans ((attempts_reaches x.2.parts _).trans (ih _))

theorem listed_attemptsOf (hw : w.Reachable) (calls : List (Grant × Addition)) (id : Nat) :
    (attemptsOf calls w).2.listed id = (accepted id (attemptsOf calls w).1).foldl keep
      (w.listed id) := by
  induction calls generalizing w with
  | nil => rfl
  | cons x calls ih =>
    have hgranted := hw.reaches (granted_reaches x.1 w)
    have hcall := hgranted.reaches (attempts_reaches x.2.parts _)
    have hsplit : accepted id (attemptsOf (x :: calls) w).1 =
        accepted id (attempts x.2.parts (w.granted x.1)).1 ++
          accepted id (attemptsOf calls (attempts x.2.parts (w.granted x.1)).2).1 := by
      simp [accepted,attemptsOf]
    have hlisted := listed_attempts hgranted x.2.parts id
    rw [show (w.granted x.1).listed id = w.listed id from rfl] at hlisted
    rw [hsplit,List.foldl_append,← hlisted]
    exact ih hcall

theorem addTool_known (hw : Legible w) {id : Nat} {r : Registry} {arena : SharedArena}
    (hlive : w.live? id = .ok (r, arena)) {tool : Tool} (hname : tool.name.isEmpty = false)
    (hschema : isSchema tool.schema = true)
    (hknown : tool.name ∈ (w.listed id).map ToolDescriptor.name) :
    w.addTool id tool = (.ok (), w) := by
  simp [addTool,hlive,hname,schemaText_eq,hschema,hw.any_named hlive,hknown]

theorem listed_createRegistry {session id : Nat} (h : (w.createRegistry session).1 = .ok id) :
    (w.createRegistry session).2.listed id = [] ∧
      ∀ k ≠ id, (w.createRegistry session).2.listed k = w.listed k := by
  rcases w.createRegistry_cases session with ⟨e,he⟩ | hmade
  · rw [he] at h
    contradiction
  rw [hmade] at h ⊢
  obtain rfl := Except.ok.inj h
  refine ⟨?_,?_⟩
  · simp [listed,entriesOf,updateSession]
  · intro k hk
    have hget : (w.registries ++ [⟨session, [], false⟩])[k]? = w.registries[k]? := by
      rw [List.getElem?_append]
      split
      · rfl
      · rename_i hlt
        rw [List.getElem?_singleton,if_neg (by omega),List.getElem?_eq_none (by omega)]
    have harena (r : Registry) : ((w.sessions.modify session fun s =>
        { s with registries := track w.registries.length s.registries })[r.session]?).map
          Session.arena = w.arenaOf r := by
      rw [getElem?_modify_map,Option.map_map,arenaOf]
      congr 1
      funext s
      simp only [Function.comp_apply]
      split <;> rfl
    simp only [listed,entriesOf,updateSession,arenaOf] at harena ⊢
    rw [hget]
    cases w.registries[k]? with
    | none => rfl
    | some r => simp only [harena r]

end Attempts

/-- Every registry keeps a list of its own, which is all that it shows. A tool is added to it as it
is to a list, except that the arena may refuse its texts or the table may not grow, and then every
list is as it was. -/
theorem registries_keep_lists (hw : w.Reachable) :
    (∀ id, Shows w id (w.listed id)) ∧
    (∀ session id, (w.createRegistry session).1 = .ok id →
      Shows (w.createRegistry session).2 id [] ∧
      ∀ k ≠ id, Shows (w.createRegistry session).2 k (w.listed k)) ∧
    (∀ (id : Nat) (r : Registry) (s : Session) (tool : Tool), w.registries[id]? = some r →
      w.sessions[r.session]? = some s → s.closed = false →
      (tool.name.isEmpty = false → isSchema tool.schema = true → tool.name ∈ w.toolNames id →
        w.addTool id tool = (.ok (), w)) ∧
      match enlist (s.arena.refused? w.host) (w.room .table) tool (w.listed id) with
      | .error e => (w.addTool id tool).1 = .error e ∧
        ∀ k, Shows (w.addTool id tool).2 k (w.listed k)
      | .ok l => (w.addTool id tool).1 = .ok () ∧ Shows (w.addTool id tool).2 id l ∧
        ∀ k ≠ id, Shows (w.addTool id tool).2 k (w.listed k)) ∧
    (∀ (a : Addition) (v : World),
      a.perform v = (firstError (attempts a.parts v).1, (attempts a.parts v).2)) ∧
    ∀ calls : List (Grant × Addition),
      let tools := fun id => accepted id (attemptsOf calls w).1
      let w' := calls.foldl (fun w x => (x.2.perform (w.granted x.1)).2) w
      ∀ id, Shows w' id ((tools id).foldl keep (w.listed id)) ∧
        w'.toolNames id = (w.toolNames id ++ (tools id).map Tool.name).eraseDups ∧
        (∀ name, w'.find? id name =
          (w.find? id name).or (((tools id).find? (·.name == name)).map described)) ∧
        ∀ name, w'.handler? id name =
          (w.handler? id name).or ((tools id).find? (·.name == name)) := by
  refine ⟨hw.shows,?_,?_,perform_eq,?_⟩
  · intro session id h
    have hcreate : (w.createRegistry session).2.Reachable :=
      hw.reaches (.single (.createRegistry session))
    obtain ⟨hid,hothers⟩ := listed_createRegistry h
    exact ⟨hid ▸ hcreate.shows id,fun k hk => hothers k hk ▸ hcreate.shows k⟩
  · intro id r s tool hr hs hopen
    have hadd : (w.addTool id tool).2.Reachable := hw.reaches (.single (.addTool id tool))
    have hlive := live?_eq hw.orderly hr
    rw [if_neg (by simp [isClosed,hs,hopen])] at hlive
    obtain ⟨arena,hlive⟩ := hlive
    obtain ⟨-,⟨s',hs',rfl⟩,-⟩ := live?_there hlive
    obtain rfl := Option.some.inj (hs.symm.trans hs')
    refine ⟨fun hname hschema hknown => addTool_known hw.legible hlive hname hschema
      ((hw.shows id).names ▸ hknown),?_⟩
    have h := (addTool_enlists hw.legible hlive tool).2
    cases he : enlist (s.arena.refused? w.host) (w.room .table) tool (w.listed id) with
    | error e =>
      rw [he] at h
      exact ⟨h.1,fun k => h.2 k ▸ hadd.shows k⟩
    | ok l =>
      rw [he] at h
      obtain ⟨hok,hid,hothers⟩ := h
      exact ⟨hok,hid ▸ hadd.shows id,fun k hk => hothers k hk ▸ hadd.shows k⟩
  · intro calls tools w' id
    have heq : w' = (attemptsOf calls w).2 := foldl_perform calls w
    have hreach : w'.Reachable := hw.reaches (heq ▸ attemptsOf_reaches calls w)
    have hlist : w'.listed id = (tools id).foldl keep (w.listed id) :=
      heq ▸ listed_attemptsOf hw calls id
    have hbefore := hw.shows id
    have hafter := hreach.shows id
    rw [hlist] at hafter
    refine ⟨hafter,?_,?_,?_⟩
    · rw [hafter.names,hbefore.names]
      exact names_foldl_keep (tools id) (hbefore.names ▸ hbefore.distinct)
    · intro name
      rw [hafter.find,hbefore.find,find_foldl_keep]
    · intro name
      rw [hafter.handler,hbefore.handler,find_foldl_keep,Option.map_or,Option.map_map]
      cases (tools id).find? (·.name == name) <;> rfl

def meagre : Grant := ⟨(· ≤ Arena.leastCapacity), fun _ _ => true⟩

def crowded : Grant := ⟨Arena.addressable, fun _ n => n == 0⟩

def narrow : World :=
  let w := ((World.empty (· ≤ Arena.leastCapacity) default none default).openSession "s"
    { Config.standard with arena := ⟨0, 0⟩ } none).2
  ((w.createRegistry 0).2.createRegistry 0).2

theorem narrow_reachable : narrow.Reachable := by
  have hopened : Reaches (World.empty (· ≤ Arena.leastCapacity) default none default) _ :=
    .single (.openSession "s" { Config.standard with arena := ⟨0, 0⟩ } none)
  exact ⟨_,_,_,_,(hopened.tail (.createRegistry 0)).tail (.createRegistry 0)⟩

def said (name description : String) : Tool := .closure name description .null [] (.returns "")

/-- Both registries take a tool `a` of their own. Of five more tools one has no name, one is known,
one is too long, and one comes when the table cannot grow. -/
theorem registries_keep_lists_narrow :
    let calls : List (Grant × Addition) := [(meagre, .one 0 (said "a" "first")),
      (meagre, .one 1 (said "a" "other")), (crowded, .one 0 (said "c" "late")),
      (meagre, .all 0 [said "" "", said "a" "again",
        said "b" (String.ofList (List.replicate 1100 'x')), .builtin .echo])]
    let w := calls.foldl (fun w x => (x.2.perform (w.granted x.1)).2) narrow
    narrow.Reachable ∧ (∃ r s, narrow.registries[0]? = some r ∧
      narrow.sessions[r.session]? = some s ∧ s.closed = false) ∧
    Shows (narrow.addTool 0 (said "a" "first")).2 0 [described (said "a" "first")] ∧
    w.toolNames 0 = ["a", "echo"] ∧ w.toolNames 1 = ["a"] ∧
    (w.find? 0 "a").map ToolDescriptor.description = some "first" ∧
    (w.find? 1 "a").map ToolDescriptor.description = some "other" ∧
    (w.find? 0 "a").map ToolDescriptor.parameters = some emptySchemaText := by
  intro calls w
  obtain ⟨hshows,-,hadd,-,hrun⟩ := registries_keep_lists narrow_reachable
  have hroom : (narrow.registries[0]?.bind fun r => narrow.sessions[r.session]?.map fun s =>
      (s.closed, s.arena.refused? narrow.host ["a", "first", emptySchemaText])) =
      some (false, none) := by decide +kernel
  obtain ⟨r,hr,hroom⟩ := Option.bind_eq_some_iff.mp hroom
  obtain ⟨s,hs,hroom⟩ := Option.map_eq_some_iff.mp hroom
  obtain ⟨hopen,hroom⟩ := Prod.mk.inj hroom
  have hnil : narrow.listed 0 = [] := by
    have hnames : narrow.toolNames 0 = [] := by decide +kernel
    simpa [hnames] using (hshows 0).names.symm
  have henlist : enlist (s.arena.refused? narrow.host) (narrow.room .table) (said "a" "first")
      (narrow.listed 0) = .ok [described (said "a" "first")] := by
    have hroom : s.arena.refused? narrow.host [(said "a" "first").name,
        (said "a" "first").description, parametersOf (said "a" "first").schema] = none := hroom
    rw [hnil,enlist,hroom]
    rfl
  have hfirst := (hadd 0 r s (said "a" "first") hr hs hopen).2
  rw [henlist] at hfirst
  obtain ⟨-,hzero,hfind,-⟩ := hrun calls 0
  obtain ⟨-,hone,hfind',-⟩ := hrun calls 1
  refine ⟨narrow_reachable,⟨r,s,hr,hs,hopen⟩,hfirst.2.1,hzero.trans ?_,hone.trans ?_,?_,?_,?_⟩
  · decide +kernel
  · decide +kernel
  · rw [hfind]
    decide +kernel
  · rw [hfind']
    decide +kernel
  · rw [hfind]
    decide +kernel

/-- A new tool is not appended, and its texts were not refused: it is the table that cannot grow. -/
theorem full_table_refuses :
    let w := ((narrow.granted crowded).addTool 0 (said "a" "first")).2
    w.Reachable ∧
    (∃ r s, w.registries[0]? = some r ∧ w.sessions[r.session]? = some s ∧ s.closed = false ∧
      s.arena.refused? w.host ["b", "second", emptySchemaText] = none) ∧
    w.toolNames 0 = ["a"] ∧ (w.addTool 0 (said "b" "second")).1 = .error tableFull ∧
    (w.addTool 0 (said "b" "second")).2.toolNames 0 = ["a"] := by
  intro w
  have hroom : (w.registries[0]?.bind fun r => w.sessions[r.session]?.map fun s =>
      (s.closed, s.arena.refused? w.host ["b", "second", emptySchemaText])) =
      some (false, none) := by decide +kernel
  obtain ⟨r,hr,hroom⟩ := Option.bind_eq_some_iff.mp hroom
  obtain ⟨s,hs,hroom⟩ := Option.map_eq_some_iff.mp hroom
  obtain ⟨hopen,hroom⟩ := Prod.mk.inj hroom
  refine ⟨?_,⟨r,s,hr,hs,hopen,hroom⟩,?_,?_,?_⟩
  · exact narrow_reachable.reaches ((granted_reaches crowded narrow).tail (.addTool 0 _))
  · decide +kernel
  · decide +kernel
  · decide +kernel

end ReasonAct.World
