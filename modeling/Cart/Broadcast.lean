/-
Relayed broadcasts over an arbitrary node type.

A root sends a message to the nodes `kids root`; every node that receives it forwards it to
its own `kids`.  `sends kids root k` lists the receivers within `k` hops.

Main results: `RelayTree.delivers`, `not_delivers_of_shared_kid`,
`not_delivers_of_root_kid`.
-/
import Mathlib.Tactic

open List

namespace Broadcast

variable {α : Type*} {target : α → Prop} {k : ℕ}

/-- The receivers of the messages sent within `k` hops. -/
def sends (kids : α → List α) (root : α) : ℕ → List α
  | 0 => []
  | k + 1 => (root :: sends kids root k).flatMap kids

/-- The broadcast ends, and was sent once to every target but the root, and to nobody else. -/
def Delivers (kids : α → List α) (root : α) (target : α → Prop) : Prop :=
  ∃ N, sends kids root (N + 1) = sends kids root N ∧ (sends kids root N).Nodup ∧
    ∀ v, v ∈ sends kids root N ↔ target v ∧ v ≠ root

section

variable {kids : α → List α} {root : α}

theorem sends_prefix_succ (k : ℕ) : sends kids root k <+: sends kids root (k + 1) := by
  induction k with
  | zero => exact nil_prefix
  | succ k ih =>
    obtain ⟨t, ht⟩ := ih
    refine ⟨t.flatMap kids, ?_⟩
    rw [sends, sends, ← ht, ← cons_append, flatMap_append]

theorem sends_prefix {l : ℕ} (h : k ≤ l) : sends kids root k <+: sends kids root l := by
  induction h with
  | refl => exact prefix_refl _
  | step _ ih => exact ih.trans (sends_prefix_succ _)

theorem sends_of_end {N : ℕ} (hend : sends kids root (N + 1) = sends kids root N) :
    ∀ k, N ≤ k → sends kids root k = sends kids root N := by
  intro k hk
  induction hk with
  | refl => rfl
  | step _ ih => rw [sends, ih, ← sends, hend]

/-- What is sent at any time is sent when the broadcast is over. -/
theorem sends_prefix_end {N : ℕ} (hend : sends kids root (N + 1) = sends kids root N) (k : ℕ) :
    sends kids root k <+: sends kids root N := by
  by_cases hk : N ≤ k
  · rw [sends_of_end hend k hk]
  · exact sends_prefix (by omega)

theorem Delivers.iff {target' : α → Prop} (h : Delivers kids root target) :
    Delivers kids root target' ↔ ∀ v, v ≠ root → (target v ↔ target' v) := by
  obtain ⟨N, hend, hnodup, hmem⟩ := h
  constructor
  · rintro ⟨N', hend', _, hmem'⟩ v hv
    have hsub : ∀ {k k'}, sends kids root (k' + 1) = sends kids root k' →
        v ∈ sends kids root k → v ∈ sends kids root k' := fun he hk =>
      (sends_prefix_end he _).subset hk
    constructor
    · intro ht
      exact ((hmem' v).mp (hsub hend' ((hmem v).mpr ⟨ht, hv⟩))).1
    · intro ht
      exact ((hmem v).mp (hsub hend ((hmem' v).mpr ⟨ht, hv⟩))).1
  · intro heq
    refine ⟨N, hend, hnodup, fun v => (hmem v).trans ?_⟩
    exact and_congr_left fun hv => heq v hv

theorem kids_subset_sends {a v : α} (ha : a ∈ root :: sends kids root k)
    (hv : v ∈ kids a) : v ∈ sends kids root (k + 1) :=
  mem_flatMap.mpr ⟨a, ha, hv⟩

/-! ### Trees -/

/-- `kids` is the child relation of a tree on the nodes: every node but the
root has a parent, smaller by `dist`. -/
structure RelayTree (kids : α → List α) (root : α) (node : α → Prop) (parent : α → α)
    (dist : α → ℕ) : Prop where
  root_node : node root
  nodup : ∀ a, node a → (kids a).Nodup
  mem : ∀ a, node a → ∀ c, c ∈ kids a ↔ node c ∧ c ≠ root ∧ parent c = a
  parent_node : ∀ c, node c → c ≠ root → node (parent c) ∧ dist (parent c) < dist c

namespace RelayTree

variable {node : α → Prop} {parent : α → α} {dist : α → ℕ}

theorem node_of_mem_sends (h : RelayTree kids root node parent dist) :
    ∀ k, ∀ v ∈ sends kids root k, node v ∧ v ≠ root := by
  intro k
  induction k with
  | zero =>
    intro v hv
    exact absurd hv not_mem_nil
  | succ k ih =>
    intro v hv
    obtain ⟨a, ha, hva⟩ := mem_flatMap.mp hv
    have hnode : node a := by
      rcases mem_cons.mp ha with rfl | ha
      · exact h.root_node
      · exact (ih a ha).1
    obtain ⟨hvn, hne, _⟩ := (h.mem a hnode v).mp hva
    exact ⟨hvn, hne⟩

variable [DecidableEq α]

section

variable (h : RelayTree kids root node parent dist)

include h

/-- Among nodes, the children lists count a node as often as its parent
occurs. -/
theorem count_flatMap_kids {v : α} (hv : node v) (hne : v ≠ root) :
    ∀ l : List α, (∀ a ∈ l, node a) → (l.flatMap kids).count v = l.count (parent v) := by
  intro l
  induction l with
  | nil =>
    intro _
    rfl
  | cons a l ih =>
    intro hl
    have hnode : node a := hl a mem_cons_self
    rw [flatMap_cons, count_append, count_cons,
      ih fun x hx => hl x (mem_cons_of_mem a hx), add_comm]
    congr 1
    by_cases hpa : a = parent v
    · -- the parent lists `v`, and lists it once
      have hmem : v ∈ kids a := (h.mem a hnode v).mpr ⟨hv, hne, hpa.symm⟩
      rw [count_eq_one_of_mem (h.nodup a hnode) hmem, if_pos (by simpa using hpa)]
    · have hnot : v ∉ kids a := fun hva => hpa ((h.mem a hnode v).mp hva).2.2.symm
      rw [count_eq_zero_of_not_mem hnot, if_neg (by simpa using hpa)]

/-- A node is reached at one hop, its depth, and never again. -/
theorem exists_depth : ∀ v, node v → ∃ d, d ≤ dist v ∧
      ∀ k, (root :: sends kids root k).count v = if d ≤ k then 1 else 0 := by
  intro v
  induction hd : dist v using Nat.strongRecOn generalizing v with
  | ind m ih =>
    intro hv
    by_cases hroot : v = root
    · subst hroot
      refine ⟨0, Nat.zero_le _, fun k => ?_⟩
      have hnot : v ∉ sends kids v k := fun hk => (h.node_of_mem_sends k v hk).2 rfl
      rw [count_cons_self, count_eq_zero_of_not_mem hnot, if_pos (Nat.zero_le k)]
    · obtain ⟨hpn, hlt⟩ := h.parent_node v hv hroot
      obtain ⟨d, hdle, hcount⟩ := ih (dist (parent v)) (hd ▸ hlt) (parent v) rfl hpn
      refine ⟨d + 1, by omega, fun k => ?_⟩
      have hskip : ∀ l : List α, (root :: l).count v = l.count v := fun l =>
        count_cons_of_ne (fun e => hroot e.symm)
      rw [hskip]
      cases k with
      | zero => simp [sends]
      | succ k =>
        have hnodes : ∀ a ∈ root :: sends kids root k, node a := by
          intro a ha
          rcases mem_cons.mp ha with rfl | ha
          · exact h.root_node
          · exact (h.node_of_mem_sends k a ha).1
        rw [sends, h.count_flatMap_kids hv hroot _ hnodes, hcount]
        simp only [Nat.add_le_add_iff_right]

/-- After as many hops as the tree is deep, every node has been reached exactly
once. -/
theorem count_sends {n : ℕ}
    (hdist : ∀ v, node v → dist v < n) (hk : n ≤ k) {v : α} (hv : node v) (hne : v ≠ root) :
    (sends kids root k).count v = 1 := by
  obtain ⟨d, hd, hcount⟩ := h.exists_depth v hv
  have hlt := hdist v hv
  rw [← count_cons_of_ne (fun e => hne e.symm), hcount k, if_pos (by omega)]

/-- **A relay tree delivers** to all its nodes. -/
theorem delivers {n : ℕ} (hdist : ∀ v, node v → dist v < n) : Delivers kids root node := by
  refine ⟨n, ?_, ?_, ?_⟩
  · -- the last hop could only repeat a receiver, and no receiver is repeated
    obtain ⟨t, ht⟩ : sends kids root n <+: sends kids root (n + 1) := sends_prefix_succ n
    have hnil : t = [] := by
      rw [eq_nil_iff_forall_not_mem]
      intro v hv
      have hmem : v ∈ sends kids root (n + 1) := ht ▸ mem_append_right _ hv
      obtain ⟨hnode, hne⟩ := h.node_of_mem_sends _ v hmem
      have hsum := congrArg (List.count v) ht
      rw [count_append, h.count_sends hdist le_rfl hnode hne,
        h.count_sends hdist (Nat.le_succ n) hnode hne] at hsum
      have := count_pos_iff.mpr hv
      omega
    rw [← ht, hnil, append_nil]
  · rw [nodup_iff_count_le_one]
    intro v
    by_cases hv : v ∈ sends kids root n
    · obtain ⟨hnode, hne⟩ := h.node_of_mem_sends n v hv
      exact (h.count_sends hdist le_rfl hnode hne).le
    · rw [count_eq_zero_of_not_mem hv]
      exact Nat.zero_le 1
  · intro v
    constructor
    · exact h.node_of_mem_sends n v
    · rintro ⟨hnode, hne⟩
      rw [← count_pos_iff, h.count_sends hdist le_rfl hnode hne]
      exact one_pos

end

end RelayTree

/-- A tree of positions, read through a table of names: `name` and `pos` are
inverse to each other on the nodes. -/
theorem RelayTree.map {β : Type*} {node : α → Prop} {parent : α → α} {dist : α → ℕ}
    (h : RelayTree kids root node parent dist) (name : α → β) (pos : β → α) (named : β → Prop)
    (kids' : β → List β) (hpos : ∀ b, named b → node (pos b) ∧ name (pos b) = b)
    (hname : ∀ a, node a → named (name a) ∧ pos (name a) = a)
    (hkids : ∀ b, named b → kids' b = (kids (pos b)).map name) :
    RelayTree kids' (name root) named (fun b => name (parent (pos b))) (fun b => dist (pos b)) := by
  have hinj : ∀ a a', node a → node a' → name a = name a' → a = a' := by
    intro a a' ha ha' heq
    rw [← (hname a ha).2, heq, (hname a' ha').2]
  refine ⟨(hname root h.root_node).1, ?_, ?_, ?_⟩
  · intro b hb
    have hnode := (hpos b hb).1
    rw [hkids b hb]
    refine Nodup.map_on ?_ (h.nodup _ hnode)
    intro a ha a' ha' heq
    exact hinj a a' ((h.mem _ hnode a).mp ha).1 ((h.mem _ hnode a').mp ha').1 heq
  · intro b hb c
    have hnode := (hpos b hb).1
    rw [hkids b hb, List.mem_map]
    constructor
    · rintro ⟨a, ha, rfl⟩
      obtain ⟨han, hne, hpar⟩ := (h.mem _ hnode a).mp ha
      refine ⟨(hname a han).1, fun heq => hne (hinj _ _ han h.root_node heq), ?_⟩
      rw [(hname a han).2, hpar, (hpos b hb).2]
    · rintro ⟨hc, hne, hpar⟩
      obtain ⟨hcn, hcname⟩ := hpos c hc
      have hcne : pos c ≠ root := by
        rintro heq
        rw [heq] at hcname
        exact hne hcname.symm
      refine ⟨pos c, (h.mem _ hnode _).mpr ⟨hcn, hcne, ?_⟩, hcname⟩
      rw [← hpar, (hname _ (h.parent_node _ hcn hcne).1).2]
  · intro c hc hne
    obtain ⟨hcn, hcname⟩ := hpos c hc
    have hcne : pos c ≠ root := by
      rintro heq
      rw [heq] at hcname
      exact hne hcname.symm
    obtain ⟨hpn, hlt⟩ := h.parent_node _ hcn hcne
    exact ⟨(hname _ hpn).1, by rwa [(hname _ hpn).2]⟩

/-! ### Failures -/

theorem sends_eq_nil (h : kids root = []) : ∀ k, sends kids root k = [] := by
  intro k
  induction k with
  | zero => rfl
  | succ k ih => rw [sends, ih, flatMap_singleton, h]

theorem delivers_of_no_kids (h : kids root = []) : Delivers kids root fun _ => False := by
  refine ⟨0, sends_eq_nil h 1, nodup_nil, fun v => ?_⟩
  rw [false_and]
  exact iff_false_intro not_mem_nil

theorem not_delivers_of_shared_kid {a b v : α}
    (ha : a ∈ root :: sends kids root k) (hb : b ∈ root :: sends kids root k) (hne : a ≠ b)
    (hva : v ∈ kids a) (hvb : v ∈ kids b) : ¬ Delivers kids root target := by
  rintro ⟨N, hend, hnodup, _⟩
  have hnd : ((root :: sends kids root k).flatMap kids).Nodup :=
    hnodup.sublist (sends_prefix_end hend (k + 1)).sublist
  have hpair := (nodup_flatMap.mp hnd).2
  have hsymm : Std.Symm (Function.onFun List.Disjoint kids) := ⟨fun _ _ h => List.Disjoint.symm h⟩
  exact hpair.forall ha hb hne hva hvb

theorem not_delivers_of_root_kid {a : α} (ha : a ∈ root :: sends kids root k)
    (hroot : root ∈ kids a) : ¬ Delivers kids root target := by
  rintro ⟨N, hend, _, hmem⟩
  have hin : root ∈ sends kids root N :=
    (sends_prefix_end hend (k + 1)).subset (kids_subset_sends ha hroot)
  exact ((hmem root).mp hin).2 rfl

end

end Broadcast
