import ReasonAct.Proofs.World.Spared
set_option autoImplicit false

namespace ReasonAct.World

def soloist : Agent where
  name := "soloist"
  session := 0
  workingDir := none
  route := .script 0 "script"
  registry := none
  memory := some 0
  maxIterations := 3
  timeoutMs := none
  instructions := some "Be terse."
  bus := none
  userData := none
  iterations := 0
  shutDown := false

def solo (memory : MemoryKind) (outcomes : List (Except ProviderError ChatResponse)) : World :=
  { World.empty Arena.addressable default none default with
    agents := [soloist]
    memories := [.empty memory]
    scripts := [⟨"script", outcomes, [], []⟩] }

def soloReach (memory : MemoryKind) (outcomes : List (Except ProviderError ChatResponse)) :
    Collaborators World := (solo memory outcomes).collaborators 0 soloist

def soloProfile : Profile := World.profile (solo .forgetful []) soloist

theorem solo_spares (memory : MemoryKind)
    (outcomes : List (Except ProviderError ChatResponse)) : (solo memory outcomes).Spares 0 := by
  refine ⟨by simp [solo],?_,?_⟩ <;> simp [solo,World.empty]

theorem soloReach_attached (memory : MemoryKind)
    (outcomes : List (Except ProviderError ChatResponse)) :
    (soloReach memory outcomes).Attached (memoryAt 0) (World.Spares 0) :=
  collaborators_attached _ 0 rfl

end ReasonAct.World
