import Mathlib.Data.Finset.Sort
import Mathlib.Data.List.Lex
import PublicIntelligence.Scheduler.Matchmaker
import PublicIntelligence.Scheduler.NodeApi

namespace PublicIntelligence.Scheduler

open Text

structure ModelObject where
  id : Text
  object : Text
  created : Int
  ownedBy : Text
deriving DecidableEq

def modelObject (modelId : Text) : ModelObject := ⟨modelId, text "model", 1700000000, text "public-intelligence"⟩

def modelsSet (r : NodeRegistry) : Finset Text := (r.nodes.values.flatMap Node.availableModels).toFinset

/-- `GET /v1/models` -/
def listModels (r : NodeRegistry) : List ModelObject := (modelsSet r).sort.map modelObject

def getModel (r : NodeRegistry) (modelId : Text) : Except HttpError ModelObject :=
  if r.nodes.values.any fun n => n.availableModels.contains modelId then .ok (modelObject modelId)
  else .error ⟨404, text "Model '" ++ modelId ++ text "' not found among active nodes."⟩

def modelsPath : Text := text "/v1/models/"

/-- The route `/v1/models/{model_id}`. Its parameter is one segment of the path: something, without a slash. -/
def modelParameter (path : Text) : Option Text :=
  let modelId := path.drop modelsPath.length
  if startswith path modelsPath ∧ modelId ≠ [] ∧ ofChar '/' ∉ modelId then some modelId else none

/-- What `get_model` answers to a path, if that is routed to it. -/
def modelRequest (r : NodeRegistry) (path : Text) : Option (Except HttpError ModelObject) :=
  (modelParameter path).map (getModel r)

section
variable {r : NodeRegistry}

/-- Some node advertises the model. -/
def Advertised (r : NodeRegistry) (modelId : Text) : Prop := ∃ n ∈ r.nodes.values, modelId ∈ n.availableModels

theorem mem_modelsSet : modelId ∈ modelsSet r ↔ Advertised r modelId := by
  simp [modelsSet, Advertised]

theorem listModels_ids : (listModels r).map ModelObject.id = (modelsSet r).sort := by
  rw [listModels, List.map_map]
  exact List.map_id _

theorem mem_listModels : o ∈ listModels r ↔ ∃ modelId, Advertised r modelId ∧ o = modelObject modelId := by
  simp only [listModels, List.mem_map, Finset.mem_sort, mem_modelsSet, eq_comm]

/-- Each model is listed once, in the order of the names. -/
theorem listModels_sorted : ((listModels r).map ModelObject.id).SortedLT := by
  rw [listModels_ids]
  exact Finset.sortedLT_sort _

theorem getModel_ok : getModel r modelId = .ok o ↔ Advertised r modelId ∧ o = modelObject modelId := by
  have hany : (r.nodes.values.any fun n => n.availableModels.contains modelId) = true ↔ Advertised r modelId := by
    simp [Advertised]
  unfold getModel
  split
  · rename_i h
    simp [hany.mp h, eq_comm]
  · rename_i h
    simp [mt hany.mpr h]

theorem modelParameter_path : modelParameter (modelsPath ++ modelId) =
    if modelId ≠ [] ∧ ofChar '/' ∉ modelId then some modelId else none := by
  have hstart : startswith (modelsPath ++ modelId) modelsPath = true := by simp [startswith]
  simp [modelParameter, hstart]

end
end PublicIntelligence.Scheduler
