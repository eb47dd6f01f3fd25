import PublicIntelligence.Scheduler.Algorithm
import PublicIntelligence.System.LoadFeedback
import PublicIntelligence.System.Restart

namespace PublicIntelligence.System

open Runs Text Encoding Json Scheduler CanaryVerifier

/-- The application: one registry and one canary verifier for every scheduling call. The
last field is history: the results of each node's checks, the latest first. -/
structure Application (τ : Type) where
  durable : Durable
  canary : CanaryVerifier τ
  results : Text → List Bool

namespace Application

inductive Act (τ : Type) where
  | call (op : Durable.Op)
  | check (now : τ) (nodeId : Text) (canary : Canary) (response : Text)
  | scheduleTask (task : Fields) (uuid : Text)
  | schedulePipeline (task : Fields) (uuid : Text)
  | scheduleSplitInferencePipeline (task : Fields) (totalLayers : Int)
  | selectNode (modelName : Text)
  | restitchPipelineOnEviction (taskId failedNodeId : Text) (snapshot : KVCacheSnapshot)
      (stages : List PipelineStage)

def registry (s : Application τ) : NodeRegistry := s.durable.registry

/-- `create_app`, once the store is loaded. -/
def start (c : Coercions) (db : Database) : Application τ where
  durable := .start c db
  canary := .new none
  results _ := []

section
variable (num : Numbers ν) (sha256 : Bytes → Bytes)

def withRegistry (s : Application τ) (registry : NodeRegistry) : Application τ :=
  { s with durable := { s.durable with registry } }

def step : Step (Application τ) (Act τ)
  | s, .call op => (s.durable.step op).map fun durable => { s with durable }
  | s, .check now nodeId canary response =>
    let (verifier, passed) := s.canary.record num.lower now nodeId canary response
    some { s with canary := verifier, results := addResult s.results nodeId passed }
  | s, .scheduleTask task uuid =>
    some (s.withRegistry (Scheduler.scheduleTask num sha256 s.canary task uuid s.registry).1)
  | s, .schedulePipeline task uuid =>
    some (s.withRegistry (Scheduler.schedulePipeline num sha256 s.canary task uuid s.registry).1)
  | s, .scheduleSplitInferencePipeline task totalLayers =>
    some (s.withRegistry (Scheduler.scheduleSplitInferencePipeline num s.canary task totalLayers s.registry).1)
  | s, .selectNode modelName => some (s.withRegistry (Scheduler.selectNode num modelName s.registry).1)
  | s, .restitchPipelineOnEviction _ _ _ _ => some s

/-- What a call that returned has chosen. -/
def returned (result : Except ScheduleError α) (nodes : α → List Text) : List Text :=
  match result with
  | .ok a => nodes a
  | .error _ => []

/-- The nodes a scheduling call chooses. The stages at the ends of a split pipeline are the
client's own; restitching chooses a node for the stages of the failed one. -/
def chosen (s : Application τ) : Act τ → List Text
  | .call _ => []
  | .check _ _ _ _ => []
  | .scheduleTask task uuid =>
    returned (Scheduler.scheduleTask num sha256 s.canary task uuid s.registry).2 fun (_, nodeId) => [nodeId]
  | .schedulePipeline task uuid =>
    returned (Scheduler.schedulePipeline num sha256 s.canary task uuid s.registry).2 fun (_, stages) =>
      stages.map PipelineStage.nodeId
  | .scheduleSplitInferencePipeline task totalLayers =>
    returned (Scheduler.scheduleSplitInferencePipeline num s.canary task totalLayers s.registry).2 fun stages =>
      (stages.filter fun stage => !stage.isLocalBoundary).map PipelineStage.nodeId
  | .selectNode modelName =>
    returned (Scheduler.selectNode num modelName s.registry).2 fun n => [n.nodeId]
  | .restitchPipelineOnEviction taskId failedNodeId snapshot stages =>
    returned (Scheduler.restitchPipelineOnEviction sha256 taskId failedNodeId snapshot stages s.registry)
      fun made => ((stages.zip made).filter fun p => p.1.nodeId = failedNodeId).map fun p => p.2.nodeId

/-- No call chooses a node whose latest results are too many failures in a row. -/
def Respected (s : Application τ) (a : Act τ) : Prop :=
  ∀ n ∈ chosen num sha256 s a, failuresInARow (s.results n) < s.canary.failuresBeforeQuarantine

/-- The two calls that do not filter find no node in quarantine where they look: `select_node`
none that is least loaded, and restitching none that is first in the registry, the failed
node aside. -/
def Clear (s : Application τ) : Act τ → Prop
  | .selectNode modelName => ∀ list, weigh num s.registry modelName s.registry.nodes.values = some list →
      ∀ c, IsLeast num list c → s.canary.isQuarantined c.1.nodeId = false
  | .restitchPipelineOnEviction _ failedNodeId snapshot stages =>
      hexText (sha256 snapshot.cacheBytes) = snapshot.checksum → failedNodeId ∈ stages.map PipelineStage.nodeId →
        ∀ n ∈ (s.registry.nodes.values.filter fun n => n.nodeId ≠ failedNodeId).head?,
          s.canary.isQuarantined n.nodeId = false
  | _ => True

instance (s : Application τ) (a : Act τ) : Decidable (Respected num sha256 s a) :=
  inferInstanceAs (Decidable (∀ n ∈ chosen num sha256 s a, _))

end

section
variable {num : Numbers ν} {sha256 : Bytes → Bytes} {s t : Application τ}

/-- The verifier's verdicts are those of the results, at every step. -/
theorem agrees_step (h : Agrees s.canary s.results) (ht : step num sha256 s a = some t) :
    Agrees t.canary t.results := by
  cases a with
  | call op =>
    obtain ⟨durable, _, rfl⟩ := Option.map_eq_some_iff.mp ht
    exact h
  | check now nodeId canary response =>
    cases ht
    exact h.record num.lower now nodeId canary response
  | scheduleTask task uuid | schedulePipeline task uuid | scheduleSplitInferencePipeline task totalLayers
  | selectNode modelName | restitchPipelineOnEviction taskId failedNodeId snapshot stages =>
    cases ht
    exact h

theorem below_iff (h : Agrees s.canary s.results) (n : Text) :
    failuresInARow (s.results n) < s.canary.failuresBeforeQuarantine ↔ s.canary.isQuarantined n = false := by
  rw [← Nat.not_le, ← h.verdict n, Bool.not_eq_true]

theorem mem_returned {result : Except ScheduleError α} {nodes : α → List Text} :
    n ∈ returned result nodes ↔ ∃ a, result = .ok a ∧ n ∈ nodes a := by
  cases result <;> simp [returned]

/-- Restitching replaces the failed node by the first of the others. -/
theorem restitch_chosen : n ∈ chosen num sha256 s (.restitchPipelineOnEviction taskId failedNodeId snapshot stages) ↔
    hexText (sha256 snapshot.cacheBytes) = snapshot.checksum ∧ failedNodeId ∈ stages.map PipelineStage.nodeId ∧
      ∃ m ∈ (s.registry.nodes.values.filter fun n => n.nodeId ≠ failedNodeId).head?, m.nodeId = n := by
  have hplaced : ∀ m : Node, n ∈ ((stages.zip (restitch failedNodeId m.nodeId stages)).filter fun p =>
      p.1.nodeId = failedNodeId).map (fun p => p.2.nodeId) ↔
        failedNodeId ∈ stages.map PipelineStage.nodeId ∧ m.nodeId = n := by
    intro m
    rw [restitch, ← List.map_prod_left_eq_zip]
    simp only [List.mem_map, List.mem_filter, decide_eq_true_eq]
    constructor
    · rintro ⟨_, ⟨⟨stage, hs, rfl⟩, hid⟩, hn⟩
      rw [if_pos hid] at hn
      exact ⟨⟨stage, hs, hid⟩, hn⟩
    · rintro ⟨⟨stage, hs, hid⟩, hn⟩
      refine ⟨_, ⟨⟨stage, hs, rfl⟩, hid⟩, ?_⟩
      rw [if_pos hid]
      exact hn
  rw [chosen, mem_returned, List.head?_filter]
  constructor
  · rintro ⟨made, hok, hn⟩
    obtain ⟨hsum, m, hm, rfl⟩ := restitchPipelineOnEviction_ok.mp hok
    obtain ⟨hstage, hid⟩ := (hplaced m).mp hn
    exact ⟨hsum, hstage, m, hm, hid⟩
  · rintro ⟨hsum, hstage, m, hm, hid⟩
    exact ⟨_, restitchPipelineOnEviction_ok.mpr ⟨hsum, m, hm, rfl⟩, (hplaced m).mpr ⟨hstage, hid⟩⟩

theorem respected_iff_clear (h : Agrees s.canary s.results) (a : Act τ) :
    Respected num sha256 s a ↔ Clear num sha256 s a := by
  unfold Respected
  simp only [below_iff h]
  cases a with
  | call op => exact iff_of_true (fun n hn => absurd hn List.not_mem_nil) trivial
  | check now nodeId canary response => exact iff_of_true (fun n hn => absurd hn List.not_mem_nil) trivial
  | scheduleTask task uuid =>
    refine iff_of_true (fun n hn => ?_) trivial
    obtain ⟨⟨txHash, w⟩, hok, hn⟩ := mem_returned.mp hn
    obtain ⟨m, points, hselect, rfl, _⟩ := scheduleTask_ok (Prod.ext rfl hok)
    rw [List.mem_singleton.mp hn]
    exact (selectForTask_spec hselect).2
  | schedulePipeline task uuid =>
    refine iff_of_true (fun n hn => ?_) trivial
    obtain ⟨⟨txHash, stages⟩, hok, hn⟩ := mem_returned.mp hn
    obtain ⟨stage, hs, rfl⟩ := List.mem_map.mp hn
    obtain ⟨m, hm, hid⟩ := schedulePipeline_spec hok stage hs
    exact hid ▸ hm.2
  | scheduleSplitInferencePipeline task totalLayers =>
    refine iff_of_true (fun n hn => ?_) trivial
    obtain ⟨stages, hok, hn⟩ := mem_returned.mp hn
    obtain ⟨stage, hs, rfl⟩ := List.mem_map.mp hn
    obtain ⟨hs, hremote⟩ := List.mem_filter.mp hs
    rcases scheduleSplit_spec hok stage hs with hlocal | ⟨m, hm, hid⟩
    · rw [hlocal] at hremote
      cases hremote
    · exact hid ▸ hm.2
  | selectNode modelName =>
    constructor
    · intro hr list hw c hc
      refine hr c.1.nodeId (mem_returned.mpr ⟨c.1, ?_, List.mem_singleton_self _⟩)
      exact selectNode_ok.mpr (leastLoaded_eq_ok.mpr ⟨list, c, hw, hc, rfl⟩)
    · intro hc n hn
      obtain ⟨m, hok, hn⟩ := mem_returned.mp hn
      obtain ⟨list, c, hw, hleast, rfl⟩ := leastLoaded_eq_ok.mp (selectNode_ok.mp hok)
      rw [List.mem_singleton.mp hn]
      exact hc list hw c hleast
  | restitchPipelineOnEviction taskId failedNodeId snapshot stages =>
    constructor
    · intro hr hsum hstage m hm
      exact hr _ (restitch_chosen.mpr ⟨hsum, hstage, m, hm, rfl⟩)
    · intro hc n hn
      obtain ⟨hsum, hstage, m, hm, rfl⟩ := restitch_chosen.mp hn
      exact hc hsum hstage m hm

end

/-- In every run, no call chooses a quarantined node exactly if the two calls that do not
filter meet none. -/
theorem quarantine_respected_iff (num : Numbers ν) (sha256 : Bytes → Bytes) (c : Coercions) (db : Database)
    (run : List (Act τ)) :
    Along (step num sha256) (Respected num sha256) (start c db) run ↔
      Along (step num sha256) (Clear num sha256) (start c db) run :=
  along_congr (I := fun s => Agrees s.canary s.results) (fun _ _ _ h ht => agrees_step h ht)
    (fun _ a h => respected_iff_clear h a) (agrees_new none)

def sampleBeat (nodeId : Text) : Heartbeat := { sampleHeartbeat with nodeId }

/-- A host that answers everything with the same token. -/
def sampleCheck : Act Unit :=
  .check () (text "n1") ⟨text "What is the capital of France? Answer with one word.", [text "paris"]⟩
    (text "token_556")

/-- A node registers, sends a heartbeat and fails three checks; then a model of its is asked for. -/
def quarantinedRun : List (Act Unit) :=
  [.call (.register (Durable.sampleNode (text "n1"))), .call (.updateHeartbeat (sampleBeat (text "n1"))),
    sampleCheck, sampleCheck, sampleCheck, .selectNode (text "llama3:8b")]

/-- `select_node` picks a node that is in quarantine. -/
theorem quarantined_node_selected :
    ¬ ∀ (num : Numbers ℚ) (sha256 : Bytes → Bytes) (c : Coercions) (db : Database) (run : List (Act Unit)),
      Along (step num sha256) (Respected num sha256) (start c db) run := by
  intro h
  exact absurd (h exactNumbers (known []) Durable.strictCoercions Durable.emptyDatabase quarantinedRun)
    (by decide +kernel)

end Application
end PublicIntelligence.System
