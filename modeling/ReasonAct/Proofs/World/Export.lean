import ReasonAct.Proofs.Chat.Wire
import ReasonAct.Proofs.World.Chronicle
set_option autoImplicit false

namespace ReasonAct

open Json

section Reading

theorem parse?_emptySchemaText : parse? emptySchemaText = some emptySchema := by
  have htext : emptySchemaText =
      (Source.object [("type",.string "object"),("properties",.object [])]).text := by
    decide +kernel
  have hwithin : Source.Within nestingLimit
      (.object [("type",.string "object"),("properties",.object [])]) := by
    simp [nestingLimit]
  rw [htext,parse?,hwithin.parse?_text]
  rfl

def schemaOf : Json → Json
  | .null => emptySchema
  | schema => schema

theorem parse?_parametersOf {schema : Json} (hsorted : schema.Sorted)
    (hwithin : schema.source.Within nestingLimit) :
    parse? (World.parametersOf schema) = some (schemaOf schema) := by
  have hread := hsorted.parse?_text hwithin
  cases schema with
  | null => exact parse?_emptySchemaText
  | bool _ | number _ | string _ | array _ | object _ => exact hread

theorem schemaOf_sorted {schema : Json} (h : schema.Sorted) : (schemaOf schema).Sorted := by
  cases schema with
  | null => exact emptySchema_sorted
  | bool _ | number _ | string _ | array _ | object _ => exact h

theorem schemaOf_within {schema : Json} {n : Nat} (h : schema.source.Within (n+2)) :
    (schemaOf schema).source.Within (n+2) := by
  cases schema with
  | null => simp [schemaOf,emptySchema_eq,Json.source,sourceMembers]
  | bool _ | number _ | string _ | array _ | object _ => exact h

/-- A tool as a model should know it. -/
def Tool.exported (t : Tool) : ToolDefinition := ⟨t.name, t.description, schemaOf t.schema⟩

theorem definition_described {t : Tool} (hsorted : t.schema.Sorted)
    (hwithin : t.schema.source.Within nestingLimit) :
    (World.described t).definition = t.exported := by
  simp only [ToolDescriptor.definition,World.described,parse?_parametersOf hsorted hwithin,
    Option.getD_some,Tool.exported]

namespace ToolDefinition

/-- A definition as it can be taken from what a model is given. -/
def ofFunction? (j : Json) : Option ToolDefinition := do
  let f ← j.member? "function"
  pure ⟨← (← f.member? "name").string?, ← (← f.member? "description").string?,
    ← f.member? "parameters"⟩

theorem function_eq (d : ToolDefinition) : d.function = .object [("function", .object
    [("description", .string d.description), ("name", .string d.name),
      ("parameters", d.parameters)]), ("type", .string "function")] := by
  simp only [function,ofFields,Members.ofList,Members.insert,List.foldl_cons,List.foldl_nil,
    String.reduceLT,String.reduceEq,↓reduceIte]

theorem ofFunction?_function (d : ToolDefinition) : ofFunction? d.function = some d := by
  rw [function_eq]
  rfl

theorem function_sorted {d : ToolDefinition} (h : d.parameters.Sorted) : d.function.Sorted := by
  rw [function_eq]
  have hfields : (Json.object [("description", .string d.description), ("name", .string d.name),
      ("parameters", d.parameters)]).Sorted :=
    .of_names (show ["description", "name", "parameters"].Pairwise (· < ·) by decide)
      (by simp [Json.Sorted.string,h])
  exact .of_names (show ["function", "type"].Pairwise (· < ·) by decide)
    (by simp [Json.Sorted.string,hfields])

theorem function_within {d : ToolDefinition} {n : Nat} (h : d.parameters.source.Within n) :
    d.function.source.Within (n+2) := by
  rw [function_eq]
  simp [Json.source,sourceMembers,h]

theorem functions_sorted {ds : List ToolDefinition} (h : ∀ d ∈ ds, d.parameters.Sorted) :
    (Json.array (ds.map function)).Sorted := .array fun j hj => by
  obtain ⟨d,hd,rfl⟩ := List.mem_map.mp hj
  exact function_sorted (h d hd)

theorem functions_read {ds : List ToolDefinition} {n : Nat} (hn : n+3 ≤ nestingLimit)
    (hsorted : ∀ d ∈ ds, d.parameters.Sorted) (hwithin : ∀ d ∈ ds, d.parameters.source.Within n) :
    ∃ js, parse? (Json.array (ds.map function)).text = some (.array js) ∧
      js.map ofFunction? = ds.map some := by
  have hitems : (Json.array (ds.map function)).source.Within (n+3) := by
    rw [Json.source,sourceItems_eq,Source.within_array]
    intro s hs
    obtain ⟨d,hd,rfl⟩ : ∃ d ∈ ds, d.function.source = s := by simpa using hs
    exact function_within (hwithin d hd)
  refine ⟨_,(functions_sorted hsorted).parse?_text (hitems.mono hn),?_⟩
  simp [ofFunction?_function,Function.comp_def]

end ToolDefinition
end Reading

namespace World

variable {w : World} {log : List Intake} {id : Nat}

def enter (l : List Tool) (t : Tool) : List Tool :=
  if t.name ∈ l.map Tool.name then l else l ++ [t]

def entered (ts : List Tool) : List Tool := ts.foldl enter []

section Entered

variable (ts : List Tool)

theorem keep_described (l : List Tool) (t : Tool) :
    keep (l.map described) t = (enter l t).map described := by
  have hnames : (l.map described).map ToolDescriptor.name = l.map Tool.name := by
    simp [described]
  unfold keep enter
  rw [hnames]
  split <;> simp

theorem foldl_keep_described (l : List Tool) :
    ts.foldl keep (l.map described) = (ts.foldl enter l).map described := by
  induction ts generalizing l with
  | nil => rfl
  | cons t ts ih => rw [List.foldl_cons,keep_described,ih,List.foldl_cons]

theorem foldl_keep_nil : ts.foldl keep [] = (entered ts).map described :=
  foldl_keep_described ts []

theorem names_entered : (entered ts).map Tool.name = (ts.map Tool.name).eraseDups := by
  have hnil : (([] : List ToolDescriptor).map ToolDescriptor.name).Nodup := by simp
  have hnames := names_foldl_keep ts hnil
  rw [foldl_keep_nil] at hnames
  simpa [described,Function.comp_def] using hnames

theorem foldl_enter_sublist (l : List Tool) : (ts.foldl enter l).Sublist (l ++ ts) := by
  induction ts generalizing l with
  | nil => simp
  | cons t ts ih =>
    have hstep : (enter l t ++ ts).Sublist (l ++ t :: ts) := by
      unfold enter
      split <;> simp
    exact (ih (enter l t)).trans hstep

theorem entered_sublist : (entered ts).Sublist ts := foldl_enter_sublist ts []

theorem foldl_enter_of_nodup (l : List Tool) (h : ((l ++ ts).map Tool.name).Nodup) :
    ts.foldl enter l = l ++ ts := by
  induction ts generalizing l with
  | nil => simp
  | cons t ts ih =>
    have hnew : t.name ∉ l.map Tool.name := by
      simp only [List.map_append,List.map_cons,List.nodup_append] at h
      exact fun hm => h.2.2 t.name hm t.name List.mem_cons_self rfl
    have hmore : enter l t = l ++ [t] := if_neg hnew
    rw [List.foldl_cons,hmore,ih _ (by simpa using h)]
    simp

theorem entered_eq_nil : entered ts = [] ↔ ts = [] := by
  have hnames := names_entered ts
  constructor
  · intro h
    cases ts with
    | nil => rfl
    | cons t ts => simp [h,List.eraseDups_cons] at hnames
  · rintro rfl
    rfl

end Entered

/-- All that a registry tells of the tools that it took. -/
structure Exports (w : World) (id : Nat) (took : List Tool) : Prop where
  order : (entered took).Sublist took
  names : (entered took).map Tool.name = (took.map Tool.name).eraseDups
  distinct : (took.map Tool.name).Nodup → entered took = took
  definitions : w.definitions id = (entered took).map Tool.exported
  nothing : w.functions? id = none ↔ took = []
  text : took ≠ [] →
    w.functions? id = some (Json.array ((w.definitions id).map ToolDefinition.function)).text
  sorted : (Json.array ((w.definitions id).map ToolDefinition.function)).Sorted
  read : (∀ t ∈ took, t.schema.source.Within 124) → ∀ text, w.functions? id = some text →
    ∃ js, Json.parse? text = some (.array js) ∧
      js.map ToolDefinition.ofFunction? = (w.definitions id).map some

section Exported

theorem functions?_eq (w : World) (id : Nat) : w.functions? id =
    if w.definitions id = [] then none
    else some (Json.array ((w.definitions id).map ToolDefinition.function)).text := by
  unfold functions?
  cases w.definitions id <;> simp

theorem Chronicle.definitions_eq (h : Chronicle log w) (hserving : Serving id w)
    (hdeclared : ∀ t ∈ tools id log, t.schema.Sorted ∧ t.schema.source.Within nestingLimit) :
    w.definitions id = (entered (tools id log)).map Tool.exported := by
  have hlisted : w.definitions id = (w.listed id).map ToolDescriptor.definition := rfl
  rw [hlisted,h.listed hserving,foldl_keep_nil,List.map_map]
  refine List.map_congr_left fun t ht => ?_
  obtain ⟨hsorted,hwithin⟩ := hdeclared t ((entered_sublist _).subset ht)
  exact definition_described hsorted hwithin

/-- As long as its session is open a registry tells of each tool that it took, in order and with the
schema that the tool declared. -/
theorem schemas_exported (h : Chronicle log w) {r : Registry} (hr : w.registries[id]? = some r)
    (hopen : w.isClosed r.session = false)
    (hdeclared : ∀ t ∈ tools id log, t.schema.Sorted ∧ t.schema.source.Within nestingLimit) :
    Exports w id (tools id log) := by
  have hserving : Serving id w := fun r' hr' => by
    obtain rfl := Option.some.inj (hr.symm.trans hr')
    exact hopen
  have hdefinitions := h.definitions_eq hserving hdeclared
  have hnil : w.definitions id = [] ↔ tools id log = [] := by
    rw [hdefinitions,List.map_eq_nil_iff,entered_eq_nil]
  have took {d : ToolDefinition} (hd : d ∈ w.definitions id) :
      ∃ t ∈ tools id log, t.exported = d := by
    rw [hdefinitions] at hd
    obtain ⟨t,ht,heq⟩ := List.mem_map.mp hd
    exact ⟨t,(entered_sublist _).subset ht,heq⟩
  have hsorted : ∀ d ∈ w.definitions id, d.parameters.Sorted := by
    intro d hd
    obtain ⟨t,ht,rfl⟩ := took hd
    exact schemaOf_sorted (hdeclared t ht).1
  have hfunctions := w.functions?_eq id
  refine ⟨entered_sublist _,names_entered _,foldl_enter_of_nodup _ [],hdefinitions,?_,?_,
    ToolDefinition.functions_sorted hsorted,?_⟩
  · rw [hfunctions,← hnil]
    split <;> simp_all
  · intro hsome
    rw [hfunctions,if_neg (hnil.not.mpr hsome)]
  · intro hwithin text htext
    rw [hfunctions] at htext
    split at htext
    · contradiction
    obtain rfl := Option.some.inj htext
    refine ToolDefinition.functions_read (n := 124) (by decide) hsorted fun d hd => ?_
    obtain ⟨t,ht,rfl⟩ := took hd
    exact schemaOf_within (hwithin t ht)

end Exported

theorem toolIntake_ok {t : Tool} (h : (w.addTool id t).1.isOk = true) :
    w.toolIntake id t = [.tool id t] := by
  unfold toolIntake
  cases hadd : (w.addTool id t).1 with
  | error e => simp [hadd,Except.isOk,Except.toBool] at h
  | ok u => rfl

def quotedSchema : Json :=
  .object [("properties", .object [("n\"é", .object [("type", .string "string")])]),
    ("type", .string "object")]

def asking : Tool := .closure "ask" "asks" quotedSchema [] (.returns "")

def told : World :=
  let w := (World.openSession "s" default none (.empty Arena.addressable default none default)).2
  let w := (w.createRegistry 0).2
  (addTool 0 (said "a" "other") (addTool 0 asking (w.addTool 0 (said "a" "first")).2).2).2

theorem told_chronicle :
    ∃ log, Chronicle log told ∧ tools 0 log = [said "a" "first", asking, said "a" "other"] := by
  have hempty := Chronicle.empty Arena.addressable default none default
  have hmade := (hempty.openSession "s" default none).ask (.createRegistry 0) trivial
  have hfirst := hmade.addTool 0 (said "a" "first")
  have hasking := hfirst.addTool 0 asking
  refine ⟨_,hasking.addTool 0 (said "a" "other"),?_⟩
  rw [tools_append,tools_append,tools_append,tools_append,tools_intake,toolIntake_ok,toolIntake_ok,
    toolIntake_ok]
  · rfl
  · decide +kernel
  · decide +kernel
  · decide +kernel

theorem quotedSchema_sorted : quotedSchema.Sorted := by
  have hfield : (Json.object [("type", .string "string")]).Sorted :=
    .object (List.pairwise_singleton _ _) (by simp [Json.Sorted.string])
  have hfields : (Json.object [("n\"é", .object [("type", .string "string")])]).Sorted :=
    .object (List.pairwise_singleton _ _) (by simp [hfield])
  exact .of_names (show ["properties", "type"].Pairwise (· < ·) by decide)
    (by simp [Json.Sorted.string,hfields])

theorem quotedSchema_within (n : Nat) : quotedSchema.source.Within (n+3) := by
  simp [quotedSchema,Json.source,sourceMembers]

theorem told_exported : (entered [said "a" "first", asking, said "a" "other"]).map Tool.exported =
    [⟨"a", "first", emptySchema⟩, ⟨"ask", "asks", quotedSchema⟩] := by
  simp [entered,enter,said,asking,Tool.name,Tool.exported,Tool.description,Tool.schema,schemaOf,
    quotedSchema]

theorem schemas_exported_told :
    (∃ log, Chronicle log told ∧ tools 0 log = [said "a" "first", asking, said "a" "other"]) ∧
    told.definitions 0 = [⟨"a", "first", emptySchema⟩, ⟨"ask", "asks", quotedSchema⟩] ∧
    ∃ text js, told.functions? 0 = some text ∧ Json.parse? text = some (.array js) ∧
      js.map ToolDefinition.ofFunction? =
        [some ⟨"a", "first", emptySchema⟩, some ⟨"ask", "asks", quotedSchema⟩] := by
  obtain ⟨log,h,htools⟩ := told_chronicle
  have hmap : told.registries[0]?.map (fun r => told.isClosed r.session) = some false := by
    decide +kernel
  obtain ⟨r,hr,hopen⟩ := Option.map_eq_some_iff.mp hmap
  have hdeclared (n : Nat) : ∀ t ∈ tools 0 log, t.schema.Sorted ∧ t.schema.source.Within (n+3) := by
    rw [htools]
    simp [said,asking,Tool.schema,quotedSchema_sorted,Json.Sorted.null,quotedSchema_within,
      Json.source]
  have hexports := schemas_exported h hr hopen (hdeclared 124)
  have htext := hexports.text (by simp [htools])
  obtain ⟨js,hparse,hjs⟩ := hexports.read (fun t ht => (hdeclared 121 t ht).2) _ htext
  have hdefinitions := hexports.definitions
  rw [htools,told_exported] at hdefinitions
  rw [hdefinitions] at hjs
  exact ⟨⟨log,h,htools⟩,hdefinitions,_,js,htext,hparse,hjs⟩

end World
end ReasonAct
