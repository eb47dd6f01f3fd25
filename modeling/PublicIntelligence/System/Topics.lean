import PublicIntelligence.Lib.KeyExpr
import PublicIntelligence.Node.Inference
import PublicIntelligence.System.Ingress

namespace PublicIntelligence.System

open Text KeyExpr Scheduler ZenohRouter Fleet
open Node (validateNonEmpty)

namespace Topics

/-- An id that the Node's settings keep as it is; the Scheduler takes any text. -/
structure NodeId where
  id : Text
  accepted : validateNonEmpty id = some id

def livelinessToken (nodeId : Text) : Text := text "public-intelligence/net/liveliness/" ++ nodeId

def inferKeyExpr (nodeId : Text) : Text := text "public-intelligence/net/" ++ nodeId ++ text "/infer"

/-- What the Scheduler subscribes to. -/
def subscription : Mesh.Purpose → Text
  | .heartbeat => text "public-intelligence/net/*/heartbeat"
  | .telemetry => text "public-intelligence/net/nodes/*/telemetry"

/-- The node id that `_on_liveliness` reads. -/
def livelinessNode (keyExpr : Text) : Option Text := (split keyExpr slash)[3]?

def segment (s : Text) : Segment Text :=
  if s = text "*" then .one else if s = text "**" then .many else .literal s

def keyExpr (t : Text) : List (Segment Text) := (split t slash).map segment

/-- The key expressions intersect. -/
def Meets (s t : Text) : Prop := Intersects (keyExpr s) (keyExpr t)

/-- The Scheduler hears the node's topics, and reads the id back from each. -/
structure Survives (n : Text) : Prop where
  heartbeat : Meets (topic .heartbeat n) (subscription .heartbeat)
  heartbeatId : nodeIdFromTopic (topic .heartbeat n) 2 = some n
  telemetry : Meets (topic .telemetry n) (subscription .telemetry)
  telemetryId : nodeIdFromTopic (topic .telemetry n) 3 = some n
  livelinessId : livelinessNode (livelinessToken n) = some n

/-- The topics of a node and its inference key. -/
def keys (n : Text) : List Text := [topic .heartbeat n, topic .telemetry n, inferKeyExpr n]

def Apart (ks ls : List Text) : Prop := ∀ k ∈ ks, ∀ l ∈ ls, ¬ Meets k l

/-- The whole segment is a wildcard. -/
def Wild (n : Text) : Prop := n = text "*" ∨ n = text "**"

instance (n : Text) : Decidable (Wild n) := inferInstanceAs (Decidable (_ ∨ _))

/-- No separator in either id, and no wildcard if there are two of them. -/
structure Separable (a b : Text) : Prop where
  left : slash ∉ a
  right : slash ∉ b
  plain : a ≠ b → ¬ Wild a ∧ ¬ Wild b

/-- One id is `liveliness` and the other names what comes after an id. -/
def Clash (a b : Text) : Prop := a = text "liveliness" ∧ (b = text "heartbeat" ∨ b = text "infer")

theorem segment_wild (h : Wild s) : segment s = .one ∨ segment s = .many := by
  rcases h with rfl | rfl
  · exact .inl rfl
  · exact .inr (by rw [segment, if_neg (by decide +kernel), if_pos rfl])

theorem segment_literal (h : ¬ Wild s) : segment s = .literal s := by
  rw [segment, if_neg fun hs => h (.inl hs), if_neg fun hs => h (.inr hs)]

/-- Whatever a segment means, it stands for itself. -/
theorem accepts_segment (s : Text) {expr : List (Segment Text)} {rest : List Text}
    (h : accepts expr rest = true) : accepts (segment s :: expr) (s :: rest) = true := by
  by_cases hw : Wild s
  · exact accepts_wild (segment_wild hw) h
  · rw [segment_literal hw]
    exact accepts_literal.mpr ⟨rest, rfl, h⟩

theorem accepts_segments (ss : List Text) : accepts (ss.map segment) ss = true := by
  induction ss with
  | nil => rfl
  | cons s ss ih => exact accepts_segment s ih

/-- The segments of the keys of an id without a separator. -/
def segments (n : Text) : List (List Text) :=
  [[text "public-intelligence", text "net", n, text "heartbeat"],
    [text "public-intelligence", text "net", text "nodes", n, text "telemetry"],
    [text "public-intelligence", text "net", n, text "infer"]]

def tokenSegments (n : Text) : List Text := [text "public-intelligence", text "net", text "liveliness", n]

section
variable {a b n : Text}

theorem split_infer (h : slash ∉ n) : split (inferKeyExpr n) slash =
    [text "public-intelligence", text "net", n, text "infer"] := by
  have hroot : text "public-intelligence/net/" =
      text "public-intelligence" ++ slash :: (text "net" ++ slash :: []) := by decide +kernel
  have htail : text "/infer" = slash :: text "infer" := by decide +kernel
  rw [inferKeyExpr, hroot, htail]
  simp only [List.append_assoc, List.cons_append, List.nil_append]
  rw [split_append (by decide +kernel), split_append (by decide +kernel), split_append h,
    split_of_not_mem (by decide +kernel)]

theorem split_livelinessToken (h : slash ∉ n) : split (livelinessToken n) slash = tokenSegments n := by
  have hroot : text "public-intelligence/net/liveliness/" =
      text "public-intelligence" ++ slash :: (text "net" ++ slash :: (text "liveliness" ++ slash :: [])) := by
    decide +kernel
  rw [livelinessToken, hroot]
  simp only [List.append_assoc, List.cons_append, List.nil_append]
  rw [split_append (by decide +kernel), split_append (by decide +kernel), split_append (by decide +kernel),
    split_of_not_mem h]
  rfl

theorem split_keys (h : slash ∉ n) (hk : k ∈ keys n) : split k slash ∈ segments n := by
  simp only [keys, List.mem_cons, List.not_mem_nil, or_false] at hk
  rcases hk with rfl | rfl | rfl
  · rw [split_heartbeat h]
    exact List.mem_cons_self
  · rw [split_telemetry h]
    exact List.mem_cons_of_mem _ List.mem_cons_self
  · rw [split_infer h]
    exact List.mem_cons_of_mem _ (List.mem_cons_of_mem _ List.mem_cons_self)

/-- No word of the templates is a wildcard. -/
theorem template_plain : ∀ s ∈ [text "public-intelligence", text "net", text "nodes", text "liveliness",
    text "heartbeat", text "telemetry", text "infer"], ¬ Wild s := by
  decide +kernel

theorem segments_plain (hw : ¬ Wild n) : ∀ ss ∈ tokenSegments n :: segments n, ∀ s ∈ ss, ¬ Wild s := by
  have htemplate := template_plain
  simp only [List.forall_mem_cons, List.not_mem_nil, false_imp_iff, implies_true, and_true] at htemplate
  obtain ⟨hpi, hnet, hnodes, hliveliness, hheartbeat, htelemetry, hinfer⟩ := htemplate
  simp [segments, tokenSegments, hw, hpi, hnet, hnodes, hliveliness, hheartbeat, htelemetry, hinfer]

theorem segments_apart (hne : a ≠ b) : ∀ ss ∈ segments a, ss ∉ segments b := by
  have hwords : text "heartbeat" ≠ text "infer" := by decide +kernel
  simp [segments, hne, hwords, hwords.symm]

theorem tokenSegments_apart (hne : a ≠ b) (hclash : ¬ Clash b a) :
    tokenSegments a ∉ tokenSegments b :: segments b := by
  intro h
  simp only [tokenSegments, segments, List.mem_cons, List.cons.injEq, true_and, and_true, List.not_mem_nil,
    or_false, reduceCtorEq, and_false, false_or] at h
  rcases h with rfl | ⟨rfl, rfl⟩ | ⟨rfl, rfl⟩
  · exact hne rfl
  · exact hclash ⟨rfl, .inl rfl⟩
  · exact hclash ⟨rfl, .inr rfl⟩

theorem Meets.symm (h : Meets k l) : Meets l k := by
  obtain ⟨key, hk, hl⟩ := h
  exact ⟨key, hl, hk⟩

theorem meets_self (k : Text) : Meets k k := ⟨split k slash, accepts_segments _, accepts_segments _⟩

theorem keyExpr_literal (h : ∀ s ∈ split k slash, ¬ Wild s) : keyExpr k = (split k slash).map .literal :=
  List.map_congr_left fun s hs => segment_literal (h s hs)

/-- Without wildcards two expressions intersect only if they are one. -/
theorem split_of_meets (hk : ∀ s ∈ split k slash, ¬ Wild s) (hl : ∀ s ∈ split l slash, ¬ Wild s) (h : Meets k l) :
    split k slash = split l slash := by
  rw [Meets, keyExpr_literal hk, keyExpr_literal hl] at h
  exact intersects_literals.mp h

theorem apart_keys (h : Separable a b) (hne : a ≠ b) : Apart (keys a) (keys b) := by
  obtain ⟨hwa, hwb⟩ := h.plain hne
  intro k hk l hl hmeets
  have hka := split_keys h.left hk
  have hlb := split_keys h.right hl
  have hsame := split_of_meets (segments_plain hwa _ (List.mem_cons_of_mem _ hka))
    (segments_plain hwb _ (List.mem_cons_of_mem _ hlb)) hmeets
  exact segments_apart hne _ hka (hsame ▸ hlb)

theorem split_keys_token (h : slash ∉ n) (hk : k ∈ livelinessToken n :: keys n) :
    split k slash ∈ tokenSegments n :: segments n := by
  rcases List.mem_cons.mp hk with rfl | hk
  · rw [split_livelinessToken h]
    exact List.mem_cons_self
  · exact List.mem_cons_of_mem _ (split_keys h hk)

theorem apart_tokens (h : Separable a b) (hab : ¬ Clash a b) (hba : ¬ Clash b a) (hne : a ≠ b) :
    Apart (livelinessToken a :: keys a) (livelinessToken b :: keys b) := by
  obtain ⟨hwa, hwb⟩ := h.plain hne
  intro k hk l hl hmeets
  have hka := split_keys_token h.left hk
  have hlb := split_keys_token h.right hl
  have hsame := split_of_meets (segments_plain hwa _ hka) (segments_plain hwb _ hlb) hmeets
  rcases List.mem_cons.mp hka with htoken | hka
  · exact tokenSegments_apart hne hba (htoken ▸ hsame ▸ hlb)
  rcases List.mem_cons.mp hlb with htoken | hlb
  · exact tokenSegments_apart hne.symm hab (htoken ▸ hsame ▸ List.mem_cons_of_mem _ hka)
  · exact segments_apart hne _ hka (hsame ▸ hlb)

/-- The two keys of a clash are one. -/
theorem not_apart_of_clash (h : Clash a b) : ¬ Apart (livelinessToken a :: keys a) (livelinessToken b :: keys b) := by
  obtain ⟨rfl, rfl | rfl⟩ := h
  · have hsame : topic .heartbeat (text "liveliness") = livelinessToken (text "heartbeat") := by decide +kernel
    intro h
    refine h _ (List.mem_cons_of_mem _ List.mem_cons_self) _ List.mem_cons_self ?_
    rw [hsame]
    exact meets_self _
  · have hsame : inferKeyExpr (text "liveliness") = livelinessToken (text "infer") := by decide +kernel
    intro h
    refine h (inferKeyExpr (text "liveliness")) (by simp [keys]) _ List.mem_cons_self ?_
    rw [hsame]
    exact meets_self _

/-- A wildcard's heartbeat topic is any other node's as well. -/
theorem meets_of_wild (ha : slash ∉ a) (hb : slash ∉ b) (hw : Wild a) :
    Meets (topic .heartbeat a) (topic .heartbeat b) := by
  refine ⟨split (topic .heartbeat b) slash, ?_, accepts_segments _⟩
  rw [keyExpr, split_heartbeat ha, split_heartbeat hb]
  refine accepts_segment _ (accepts_segment _ ?_)
  exact accepts_wild (segment_wild hw) (accepts_segments [text "heartbeat"])

theorem not_wild_of_apart (ha : slash ∉ a) (hb : slash ∉ b) (h : Apart (keys a) (keys b)) :
    ¬ Wild a ∧ ¬ Wild b := by
  constructor
  · exact fun hw => h _ List.mem_cons_self _ List.mem_cons_self (meets_of_wild ha hb hw)
  · exact fun hw => h _ List.mem_cons_self _ List.mem_cons_self (meets_of_wild hb ha hw).symm

theorem nodeIdFromTopic_eq_some : nodeIdFromTopic k i = some n ↔ (split k slash)[i]? = some n ∧ n ≠ [] := by
  rw [nodeIdFromTopic, Option.filter_eq_some_iff]
  simp

theorem keyExpr_heartbeats : keyExpr (subscription .heartbeat) =
    [segment (text "public-intelligence"), segment (text "net"), .one, segment (text "heartbeat")] := by
  have hsplit : split (subscription .heartbeat) slash =
      [text "public-intelligence", text "net", text "*", text "heartbeat"] := by decide +kernel
  rw [keyExpr, hsplit]
  rfl

theorem keyExpr_telemetries : keyExpr (subscription .telemetry) =
    [segment (text "public-intelligence"), segment (text "net"), segment (text "nodes"), .one,
      segment (text "telemetry")] := by
  have hsplit : split (subscription .telemetry) slash =
      [text "public-intelligence", text "net", text "nodes", text "*", text "telemetry"] := by decide +kernel
  rw [keyExpr, hsplit]
  rfl

/-- An id comes back from its topics exactly if there is no separator in it. -/
theorem survives_iff (hn : n ≠ []) : Survives n ↔ slash ∉ n := by
  constructor
  · intro h
    obtain ⟨hpart, _⟩ := nodeIdFromTopic_eq_some.mp h.heartbeatId
    exact not_mem_of_mem_split (List.mem_of_getElem? hpart)
  · intro h
    constructor
    · refine ⟨split (topic .heartbeat n) slash, accepts_segments _, ?_⟩
      rw [keyExpr_heartbeats, split_heartbeat h]
      refine accepts_segment _ (accepts_segment _ ?_)
      exact accepts_wild (.inl rfl) (accepts_segments [text "heartbeat"])
    · rw [nodeIdFromTopic_eq_some, split_heartbeat h]
      exact ⟨rfl, hn⟩
    · refine ⟨split (topic .telemetry n) slash, accepts_segments _, ?_⟩
      rw [keyExpr_telemetries, split_telemetry h]
      refine accepts_segment _ (accepts_segment _ (accepts_segment _ ?_))
      exact accepts_wild (.inl rfl) (accepts_segments [text "telemetry"])
    · rw [nodeIdFromTopic_eq_some, split_telemetry h]
      exact ⟨rfl, hn⟩
    · rw [livelinessNode, split_livelinessToken h]
      rfl

theorem NodeId.ne_nil (a : NodeId) : a.id ≠ [] := by
  intro h
  have haccepted := a.accepted
  rw [h] at haccepted
  cases haccepted

theorem Apart.keys_of_tokens (h : Apart (livelinessToken a :: keys a) (livelinessToken b :: keys b)) :
    Apart (keys a) (keys b) :=
  fun k hk l hl => h k (List.mem_cons_of_mem _ hk) l (List.mem_cons_of_mem _ hl)

end

/-- Two ids come back from their topics, and keep apart if they differ, exactly if neither has a
separator in it and neither is a wildcard beside another id. The liveliness tokens keep apart from the
other keys as well exactly if no id is `liveliness` beside one that is `heartbeat` or `infer`. -/
theorem ids_survive_iff (a b : NodeId) :
    ((Survives a.id ∧ Survives b.id ∧ (a.id ≠ b.id → Apart (keys a.id) (keys b.id))) ↔ Separable a.id b.id) ∧
      ((Survives a.id ∧ Survives b.id ∧ (a.id ≠ b.id →
          Apart (livelinessToken a.id :: keys a.id) (livelinessToken b.id :: keys b.id))) ↔
        Separable a.id b.id ∧ ¬ Clash a.id b.id ∧ ¬ Clash b.id a.id) := by
  rw [survives_iff a.ne_nil, survives_iff b.ne_nil]
  have hne : ∀ x y, Clash x y → x ≠ y := by
    have hwords : text "liveliness" ≠ text "heartbeat" ∧ text "liveliness" ≠ text "infer" := by decide +kernel
    rintro _ _ ⟨rfl, rfl | rfl⟩
    · exact hwords.1
    · exact hwords.2
  constructor
  · constructor
    · rintro ⟨ha, hb, hapart⟩
      exact ⟨ha, hb, fun h => not_wild_of_apart ha hb (hapart h)⟩
    · exact fun h => ⟨h.left, h.right, apart_keys h⟩
  · constructor
    · rintro ⟨ha, hb, hapart⟩
      refine ⟨⟨ha, hb, fun h => not_wild_of_apart ha hb (hapart h).keys_of_tokens⟩, ?_, ?_⟩
      · exact fun hclash => not_apart_of_clash hclash (hapart (hne _ _ hclash))
      · intro hclash
        refine not_apart_of_clash hclash fun k hk l hl hmeets => ?_
        exact hapart (hne _ _ hclash).symm l hl k hk hmeets.symm
    · rintro ⟨h, hab, hba⟩
      exact ⟨h.left, h.right, apart_tokens h hab hba⟩

/-- The ids `*` and `n1` are accepted, and the first one's keys are the second one's too. -/
theorem wildcard_id_intersects :
    ¬ ∀ a b : NodeId, Survives a.id ∧ (a.id ≠ b.id → Apart (keys a.id) (keys b.id)) := by
  intro h
  obtain ⟨_, hapart⟩ := h ⟨text "*", by decide +kernel⟩ ⟨text "n1", by decide +kernel⟩
  have hne : text "*" ≠ text "n1" := by decide +kernel
  exact (not_wild_of_apart (by decide +kernel) (by decide +kernel) (hapart hne)).1 (.inl rfl)

end Topics
end PublicIntelligence.System
