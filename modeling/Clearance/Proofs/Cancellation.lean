import Clearance.Cancellation
import Clearance.Proofs.Tables
import Mathlib.Logic.Function.Basic
import Mathlib.Order.Nat

/-!
# Clearance — Proofs — Cancellation reaches the descendants

The forest of signals is compared with what a history of a desk says of it.  The history alone tells
from which source each name was derived, below which other sources that one was made, and on which
sources `cancel` was called.

* `Signals.lineage`: a signal and those above it.  `Signals.isCancelled_iff`: it is cancelled if and
  only if one of them was raised.
* `Signals.Bears`: a forest with one more signal, which leaves the lineages that were there.
* `SignalDesk.lineage?`: the source that a name was derived from and those above it, read off a
  history.  `SignalDesk.Cancelled`: `cancel` was called on one of them.
* `SignalDesk.Traces`: the desk shows what its history says.  Every operation keeps this,
  `SignalDesk.traces_after`.
* `SignalDesk.cancel_reaches_descendants`: a name is reported as cancelled if and only if `cancel`
  was called on its source or on one above it.
-/

namespace Clearance

namespace Signals

variable {s s' : Signals} {m n : Nat}

/-! ### Lineages -/

/-- A signal and those above it, the nearest first. -/
def lineage (s : Signals) (n : Nat) : List Nat :=
  n :: match s.parent? n with
    | some ⟨p, _⟩ => lineage s p
    | none => []
termination_by n

theorem map_val_parent? (s : Signals) (n : Nat) :
    (s.parent? n).map Subtype.val = s.parents[n]?.join := by
  unfold parent?
  split
  · rename_i h
    simp [h]
  · rename_i h
    cases hp : s.parents[n]? with
    | none => rfl
    | some p =>
        cases p with
        | none => rfl
        | some p => exact absurd hp (h p)

theorem lineage_eq (s : Signals) (n : Nat) :
    s.lineage n = n :: ((s.parent? n).map Subtype.val).elim [] s.lineage := by
  rw [lineage]
  cases s.parent? n <;> rfl

theorem mem_lineage_self (s : Signals) (n : Nat) : n ∈ s.lineage n := by
  rw [lineage]
  exact List.mem_cons_self

/-- Whatever is above a signal came before it. -/
theorem le_of_mem_lineage (h : m ∈ s.lineage n) : m ≤ n := by
  induction n using Nat.strongRecOn with
  | ind n ih =>
      rw [lineage_eq] at h
      rcases List.mem_cons.mp h with rfl | h
      · exact le_rfl
      · cases hp : s.parent? n with
        | none => simp [hp] at h
        | some p =>
            rw [hp] at h
            exact (ih p p.2 h).trans p.2.le

/-- A signal is in a lineage with all that is above it. -/
theorem mem_lineage_iff : m ∈ s.lineage n ↔ s.lineage m <:+ s.lineage n := by
  refine ⟨fun h => ?_, fun h => h.mem (s.mem_lineage_self m)⟩
  induction n using Nat.strongRecOn with
  | ind n ih =>
      rw [lineage_eq] at h
      rcases List.mem_cons.mp h with rfl | h
      · exact List.suffix_rfl
      · cases hp : s.parent? n with
        | none => simp [hp] at h
        | some p =>
            rw [hp] at h
            rw [s.lineage_eq n, hp]
            exact (ih p p.2 h).trans (List.suffix_cons n _)

/-- A signal is cancelled if and only if it was raised or one above it was. -/
theorem isCancelled_iff : s.isCancelled n = true ↔ ∃ m ∈ s.raised, m ∈ s.lineage n := by
  induction n using Nat.strongRecOn with
  | ind n ih =>
      rw [isCancelled, lineage]
      cases hp : s.parent? n with
      | none => simp
      | some p => simp [ih p p.2, and_or_left, exists_or]

/-- A lineage depends on the parents of its members only. -/
theorem lineage_congr (h : ∀ m ≤ n, s.parents[m]? = s'.parents[m]?) :
    s.lineage n = s'.lineage n := by
  induction n using Nat.strongRecOn with
  | ind n ih =>
      rw [lineage_eq, lineage_eq, map_val_parent? s', ← h n le_rfl, ← map_val_parent?]
      cases s.parent? n with
      | none => rfl
      | some p => exact congrArg _ (ih p p.2 fun m hm => h m (hm.trans p.2.le))

theorem lineage_raise (s : Signals) (m : Nat) : (s.raise m).lineage = s.lineage :=
  funext fun _ => lineage_congr fun _ _ => rfl

/-! ### One signal more -/

/-- `s'` has one signal more than `s`, with `above` above it. -/
structure Bears (s s' : Signals) (above : List Nat) : Prop where
  size : s'.size = s.size + 1
  raised : s'.raised = s.raised
  lt : ∀ m ∈ above, m < s.size
  kept : ∀ n < s.size, s'.lineage n = s.lineage n
  new : s'.lineage s.size = s.size :: above

theorem bears_of_parents {p : Option Nat} (h : s'.parents = s.parents ++ [p])
    (hr : s'.raised = s.raised) : Bears s s' (p.elim [] s.lineage) := by
  have hkept : ∀ n < s.size, s'.lineage n = s.lineage n := fun n hn =>
    lineage_congr fun m hm => by rw [h, List.getElem?_append_left (hm.trans_lt hn)]
  have hnew : s'.parents[s.size]? = some p := by rw [h, size, List.getElem?_concat_length]
  have hlineage : s'.lineage s.size = s.size :: p.elim [] s'.lineage := by
    rw [lineage_eq, map_val_parent?, hnew]
    rfl
  cases p with
  | none => exact ⟨by simp [size, h], hr, nofun, hkept, hlineage⟩
  | some p =>
      have hp : p < s.size := s'.parent_lt _ p hnew
      refine ⟨by simp [size, h], hr, fun m hm => ?_, hkept, ?_⟩
      · exact (le_of_mem_lineage hm).trans_lt hp
      · rw [hlineage, Option.elim_some, hkept p hp]
        rfl

theorem bears_root (s : Signals) : Bears s s.root.2 [] :=
  bears_of_parents (p := none) rfl rfl

theorem bears_child (s : Signals) (p : Fin s.size) : Bears s (s.child p).2 (s.lineage p) :=
  bears_of_parents (p := some p.val) rfl rfl

end Signals

namespace SignalDesk

variable {d d' : SignalDesk}

/-! ### What a desk shows -/

/-- The name of a source or of a token. -/
inductive Name where
  | source (name : String)
  | token (name : String)
  deriving DecidableEq

/-- What the source or token held under a name observes. -/
def observed? (d : SignalDesk) : Name → Option CancelToken
  | .source a => (d.sources.get? a).map .signal
  | .token t => d.tokens.get? t

/-- A source or token is held under a name and says that it is cancelled. -/
def Reports (d : SignalDesk) : Name → Prop
  | .source a => a ∈ d.cancelledSources
  | .token t => t ∈ d.cancelledTokens

theorem mem_namesWhere {α : Type} {p : α → Bool} {t : Table String α} {a : String} :
    a ∈ namesWhere p t ↔ ∃ x, t.get? a = some x ∧ p x = true := by
  simp [namesWhere, List.mem_mergeSort, ← Table.mem_entries]

theorem reports_iff {x : Name} :
    d.Reports x ↔ ∃ t, d.observed? x = some t ∧ d.isCancelled t = true := by
  cases x with
  | source a => simp [Reports, cancelledSources, mem_namesWhere, observed?, isCancelled]
  | token t => simp [Reports, cancelledTokens, mem_namesWhere, observed?]

theorem observed?_insert_source (d : SignalDesk) (signals : Signals) (a : String) (n : Nat) :
    ({ d with signals := signals, sources := d.sources.insert a n } : SignalDesk).observed? =
      Function.update d.observed? (.source a) (some (.signal n)) := by
  funext x
  cases x with
  | source b => by_cases h : b = a <;> simp [observed?, Table.get?_insert, h]
  | token t => rfl

theorem observed?_insert_token (d : SignalDesk) (t : String) (c : CancelToken) :
    ({ d with tokens := d.tokens.insert t c } : SignalDesk).observed? =
      Function.update d.observed? (.token t) (some c) := by
  funext x
  cases x with
  | source a => rfl
  | token u => by_cases h : u = t <;> simp [observed?, Table.get?_insert, h]

theorem observed?_dropSource (d : SignalDesk) (a : String) :
    (d.dropSource a).observed? = Function.update d.observed? (.source a) none := by
  funext x
  cases x with
  | source b => by_cases h : b = a <;> simp [observed?, dropSource, Table.get?_erase, h]
  | token t => rfl

/-! ### Histories -/

/-- What may be done at a desk. -/
inductive Op where
  | source (name : String)
  | child (parent name : String)
  | token (source name : String)
  /-- A token is made that observes nothing. -/
  | idle (name : String)
  | cloneSource (source name : String)
  | cloneToken (token name : String)
  | cancel (source : String)
  /-- A source is let go under one of its names. -/
  | drop (source : String)
  | wait (token name : String)

def Op.perform (d : SignalDesk) : Op → SignalDesk
  | source a => d.addSource a
  | child p a => d.addChild p a
  | token s t => d.addToken s t
  | idle t => d.addIdle t
  | cloneSource s a => d.cloneSource s a
  | cloneToken t u => d.cloneToken t u
  | cancel s => d.cancel s
  | drop s => d.dropSource s
  | wait t a => d.wait t a

/-- The desk after a history, which has its last operation first. -/
def after : List Op → SignalDesk
  | [] => {}
  | op :: past => op.perform (after past)

/-- Gives the name `y` what the name `x` has, changed by `f`, if `x` has something. -/
def derive {α : Type} (known : Name → Option α) (x y : Name) (f : α → α) : Name → Option α :=
  match known x with
  | some l => Function.update known y (some (f l))
  | none => known

/-- The source that a name was derived from and those above it, the nearest first, as the history
tells.  A source is known by the number of operations before the one that made it.  A token that
observes nothing was derived from no source. -/
def lineage? : List Op → Name → Option (List Nat)
  | [] => fun _ => none
  | op :: past =>
    match op with
    | .source a => Function.update (lineage? past) (.source a) (some [past.length])
    | .child p a => derive (lineage? past) (.source p) (.source a) (past.length :: ·)
    | .token s t => derive (lineage? past) (.source s) (.token t) id
    | .idle t => Function.update (lineage? past) (.token t) (some [])
    | .cloneSource s a => derive (lineage? past) (.source s) (.source a) id
    | .cloneToken t u => derive (lineage? past) (.token t) (.token u) id
    | .drop s => Function.update (lineage? past) (.source s) none
    | .cancel _ | .wait _ _ => lineage? past

/-- `cancel` was called on the source with this lineage. -/
def Called (past : List Op) (l : List Nat) : Prop :=
  ∃ s before, .cancel s :: before <:+ past ∧ lineage? before (.source s) = some l

/-- `cancel` was called on the source with this lineage or on one above it. -/
def Cancelled (past : List Op) (l : List Nat) : Prop := ∃ k, Called past k ∧ k <:+ l

/-- Two lineages go through different children of a common ancestor, or they have none. -/
def Parted (k l : List Nat) : Prop := ∃ i j m, i ≠ j ∧ i :: m <:+ k ∧ j :: m <:+ l

variable {past : List Op} {op : Op} {k l : List Nat}

theorem called_nil : ¬ Called [] l := by
  rintro ⟨s, before, h, -⟩
  exact absurd (List.suffix_nil.mp h) (List.cons_ne_nil _ _)

theorem called_cons_iff : Called (op :: past) l ↔
    (∃ s, op = .cancel s ∧ lineage? past (.source s) = some l) ∨ Called past l := by
  constructor
  · rintro ⟨s, before, h, hl⟩
    rcases List.suffix_cons_iff.mp h with h | h
    · obtain ⟨rfl, rfl⟩ := List.cons.inj h
      exact .inl ⟨s, rfl, hl⟩
    · exact .inr ⟨s, before, h, hl⟩
  · rintro (⟨s, rfl, hl⟩ | ⟨s, before, h, hl⟩)
    · exact ⟨s, past, List.suffix_rfl, hl⟩
    · exact ⟨s, before, h.trans (List.suffix_cons _ _), hl⟩

theorem called_cancel {s : String} :
    Called (.cancel s :: past) l ↔ lineage? past (.source s) = some l ∨ Called past l := by
  simp [called_cons_iff]

theorem called_cons (hop : ∀ s, op ≠ .cancel s) : Called (op :: past) l ↔ Called past l := by
  simp [called_cons_iff, hop]

theorem Called.mono {later : List Op} (h : Called past l) : Called (later ++ past) l := by
  obtain ⟨s, before, hb, hl⟩ := h
  exact ⟨s, before, hb.trans (List.suffix_append _ _), hl⟩

theorem Cancelled.mono {later : List Op} (h : Cancelled past l) : Cancelled (later ++ past) l := by
  obtain ⟨k, hk, hkl⟩ := h
  exact ⟨k, hk.mono, hkl⟩

theorem Cancelled.below (h : Cancelled past k) (hkl : k <:+ l) : Cancelled past l := by
  obtain ⟨j, hj, hjk⟩ := h
  exact ⟨j, hj, hjk.trans hkl⟩

theorem cancelled_cancel {s : String} (h : lineage? past (.source s) = some k) :
    Cancelled (.cancel s :: past) l ↔ Cancelled past l ∨ k <:+ l := by
  constructor
  · rintro ⟨j, hj, hjl⟩
    rcases called_cancel.mp hj with hs | hj
    · obtain rfl : k = j := Option.some.inj (h.symm.trans hs)
      exact .inr hjl
    · exact .inl ⟨j, hj, hjl⟩
  · rintro (⟨j, hj, hjl⟩ | hkl)
    · exact ⟨j, called_cancel.mpr (.inr hj), hjl⟩
    · exact ⟨k, called_cancel.mpr (.inl h), hkl⟩

theorem Parted.not_suffix (h : Parted k l) : ¬ k <:+ l := by
  intro hkl
  obtain ⟨i, j, m, hij, hi, hj⟩ := h
  have heq := (List.suffix_of_suffix_length_le (hi.trans hkl) hj le_rfl).eq_of_length rfl
  exact hij (List.cons.inj heq).1

/-! ### What a desk shows of its history -/

/-- The lineage of what a token observes, where `birth` gives for each signal the number of
operations before the one that made it. -/
def shown (s : Signals) (birth : Nat → Nat) : CancelToken → List Nat
  | .never => []
  | .signal n => (s.lineage n).map birth

section Bears

variable {s s' : Signals} {above : List Nat}

theorem shown_of_bears (h : s.Bears s' above) (birth : Nat → Nat) (b : Nat) {n : Nat}
    (hn : n < s.size) :
    shown s' (Function.update birth s.size b) (.signal n) = shown s birth (.signal n) := by
  simp only [shown, h.kept n hn]
  refine List.map_congr_left fun m hm => Function.update_of_ne ?_ _ _
  exact ((Signals.le_of_mem_lineage hm).trans_lt hn).ne

theorem shown_new_of_bears (h : s.Bears s' above) (birth : Nat → Nat) (b : Nat) :
    shown s' (Function.update birth s.size b) (.signal s.size) = b :: above.map birth := by
  simp only [shown, h.new, List.map_cons, Function.update_self]
  refine congrArg _ (List.map_congr_left fun m hm => ?_)
  exact Function.update_of_ne (h.lt m hm).ne _ _

end Bears

/-- The desk shows what its history says. -/
structure Traces (past : List Op) (d : SignalDesk) (birth : Nat → Nat) : Prop where
  lineage : ∀ x, lineage? past x = (d.observed? x).map (shown d.signals birth)
  held : ∀ x n, d.observed? x = some (.signal n) → n < d.signals.size
  called : ∀ l, Called past l ↔ ∃ n ∈ d.signals.raised, l = shown d.signals birth (.signal n)
  raised : ∀ n ∈ d.signals.raised, n < d.signals.size
  born : ∀ n < d.signals.size, birth n < past.length
  distinct : ∀ n < d.signals.size, ∀ m < d.signals.size, birth n = birth m → n = m

theorem traces_nil : Traces [] {} id where
  lineage x := by cases x <;> rfl
  held x n h := by cases x <;> cases h
  called l := iff_of_false called_nil nofun
  raised := nofun
  born n h := absurd h (Nat.not_lt_zero n)
  distinct n h := absurd h (Nat.not_lt_zero n)

namespace Traces

variable {birth : Nat → Nat} {x y : Name} {c : Option CancelToken} {above : List Nat}

/-- An operation binds a name, and signals and cancellations stay as they are. -/
theorem rebind (h : Traces past d birth) (hop : ∀ s, op ≠ .cancel s) (hs : d'.signals = d.signals)
    (hobs : d'.observed? = Function.update d.observed? x c)
    (hl : lineage? (op :: past) =
      Function.update (lineage? past) x (c.map (shown d.signals birth)))
    (hc : ∀ n, c = some (.signal n) → n < d.signals.size) : Traces (op :: past) d' birth where
  lineage z := by
    rw [hl, hobs, hs]
    by_cases hz : z = x
    · simp [hz]
    · simp [hz, h.lineage z]
  held z n hn := by
    rw [hobs] at hn
    rw [hs]
    by_cases hz : z = x
    · exact hc n (by simpa [hz] using hn)
    · exact h.held z n (by simpa [hz] using hn)
  called l := by rw [called_cons hop, hs, h.called]
  raised := hs ▸ h.raised
  born n hn := (h.born n (hs ▸ hn)).trans (Nat.lt_succ_self _)
  distinct := hs ▸ h.distinct

/-- An operation gives a name what another one observes, if that one is held. -/
theorem share (h : Traces past d birth) (hop : ∀ s, op ≠ .cancel s) (hs : d'.signals = d.signals)
    (hobs : d'.observed? = derive d.observed? x y id)
    (hl : lineage? (op :: past) = derive (lineage? past) x y id) :
    Traces (op :: past) d' birth := by
  simp only [derive, h.lineage x] at hobs hl
  cases hx : d.observed? x with
  | none =>
      rw [hx] at hobs hl
      refine h.rebind hop hs (x := y) (c := d.observed? y) ?_ ?_ (h.held y)
      · rw [hobs, Function.update_eq_self]
      · rw [hl, ← h.lineage y, Function.update_eq_self]
        rfl
  | some t =>
      rw [hx] at hobs hl
      exact h.rebind hop hs hobs hl fun n hn => h.held x n (hx.trans hn)

theorem stay (h : Traces past d birth) (hop : ∀ s, op ≠ .cancel s) (hs : d'.signals = d.signals)
    (hobs : d'.observed? = d.observed?) (hl : lineage? (op :: past) = lineage? past) :
    Traces (op :: past) d' birth := by
  refine h.rebind hop hs (x := .source "") (c := d.observed? (.source "")) ?_ ?_ (h.held _)
  · rw [hobs, Function.update_eq_self]
  · rw [hl, ← h.lineage, Function.update_eq_self]

/-- An operation makes a source. -/
theorem bear (h : Traces past d birth) (hop : ∀ s, op ≠ .cancel s)
    (hb : d.signals.Bears d'.signals above)
    (hobs : d'.observed? = Function.update d.observed? x (some (.signal d.signals.size)))
    (hl : lineage? (op :: past) =
      Function.update (lineage? past) x (some (past.length :: above.map birth))) :
    Traces (op :: past) d' (Function.update birth d.signals.size past.length) where
  lineage z := by
    rw [hl, hobs]
    by_cases hz : z = x
    · simp [hz, shown_new_of_bears hb]
    · simp only [Function.update_of_ne hz, h.lineage z]
      cases hd : d.observed? z with
      | none => rfl
      | some t =>
          cases t with
          | never => rfl
          | signal n => exact congrArg some (shown_of_bears hb _ _ (h.held z n hd)).symm
  held z n hn := by
    rw [hobs] at hn
    rw [hb.size]
    by_cases hz : z = x
    · obtain rfl : d.signals.size = n := by simpa [hz] using hn
      exact Nat.lt_succ_self _
    · exact (h.held z n (by simpa [hz] using hn)).trans (Nat.lt_succ_self _)
  called l := by
    rw [called_cons hop, h.called, hb.raised]
    refine exists_congr fun n => and_congr_right fun hn => ?_
    rw [shown_of_bears hb _ _ (h.raised n hn)]
  raised n hn := by
    rw [hb.raised] at hn
    rw [hb.size]
    exact (h.raised n hn).trans (Nat.lt_succ_self _)
  born n hn := by
    rw [hb.size] at hn
    rcases Nat.lt_succ_iff_lt_or_eq.mp hn with hn | rfl
    · rw [Function.update_of_ne hn.ne]
      exact (h.born n hn).trans (Nat.lt_succ_self _)
    · rw [Function.update_self]
      exact Nat.lt_succ_self _
  distinct n hn m hm heq := by
    rw [hb.size] at hn hm
    -- the new signal is born after all the others
    rcases Nat.lt_succ_iff_lt_or_eq.mp hn with hn | rfl <;>
      rcases Nat.lt_succ_iff_lt_or_eq.mp hm with hm | rfl
    · rw [Function.update_of_ne hn.ne, Function.update_of_ne hm.ne] at heq
      exact h.distinct n hn m hm heq
    · rw [Function.update_of_ne hn.ne, Function.update_self] at heq
      exact absurd heq (h.born n hn).ne
    · rw [Function.update_of_ne hm.ne, Function.update_self] at heq
      exact absurd heq.symm (h.born m hm).ne
    · rfl

/-! ### Operations -/

theorem source_lt (h : Traces past d birth) {s : String} {n : Nat}
    (hs : d.sources.get? s = some n) : n < d.signals.size :=
  h.held (.source s) n (by simp [observed?, hs])

theorem lineage_of_source (h : Traces past d birth) {s : String} {n : Nat}
    (hs : d.sources.get? s = some n) :
    lineage? past (.source s) = some (shown d.signals birth (.signal n)) := by
  simp [h.lineage, observed?, hs]

theorem lineage_of_no_source (h : Traces past d birth) {s : String}
    (hs : d.sources.get? s = none) : lineage? past (.source s) = none := by
  simp [h.lineage, observed?, hs]

theorem source (h : Traces past d birth) (a : String) :
    Traces (.source a :: past) (d.addSource a)
      (Function.update birth d.signals.size past.length) :=
  h.bear nofun d.signals.bears_root (d.observed?_insert_source _ a _) rfl

theorem child (h : Traces past d birth) (p a : String) :
    ∃ birth', Traces (.child p a :: past) (d.addChild p a) birth' := by
  cases hp : d.sources.get? p with
  | none =>
      rw [addChild, hp]
      refine ⟨birth, h.stay nofun rfl rfl ?_⟩
      simp only [lineage?, derive, h.lineage_of_no_source hp]
  | some n =>
      have hn := h.source_lt hp
      simp only [addChild, hp, dif_pos hn]
      refine ⟨_, h.bear nofun (d.signals.bears_child ⟨n, hn⟩) (d.observed?_insert_source _ a _) ?_⟩
      simp only [lineage?, derive, h.lineage_of_source hp, shown]

theorem token (h : Traces past d birth) (s t : String) :
    Traces (.token s t :: past) (d.addToken s t) birth := by
  cases hs : d.sources.get? s with
  | none =>
      rw [addToken, hs]
      exact h.share nofun rfl (by simp only [derive, observed?, hs, Option.map_none]) rfl
  | some n =>
      rw [addToken, hs]
      refine h.share nofun rfl ?_ rfl
      simp only [derive, observed?_insert_token, observed?, hs, Option.map_some, id]

theorem cloneSource (h : Traces past d birth) (s a : String) :
    Traces (.cloneSource s a :: past) (d.cloneSource s a) birth := by
  cases hs : d.sources.get? s with
  | none =>
      rw [SignalDesk.cloneSource, hs]
      exact h.share nofun rfl (by simp only [derive, observed?, hs, Option.map_none]) rfl
  | some n =>
      rw [SignalDesk.cloneSource, hs]
      refine h.share nofun rfl ?_ rfl
      simp only [derive, observed?_insert_source, observed?, hs, Option.map_some, id]

theorem cloneToken (h : Traces past d birth) (t u : String) :
    Traces (.cloneToken t u :: past) (d.cloneToken t u) birth := by
  cases ht : d.tokens.get? t with
  | none =>
      rw [SignalDesk.cloneToken, ht]
      exact h.share nofun rfl (by simp only [derive, observed?, ht]) rfl
  | some c =>
      rw [SignalDesk.cloneToken, ht]
      refine h.share nofun rfl ?_ rfl
      simp only [derive, observed?_insert_token, observed?, ht, id]

theorem cancel (h : Traces past d birth) (s : String) :
    Traces (.cancel s :: past) (d.cancel s) birth := by
  have hborn : ∀ n < d.signals.size, birth n < (Op.cancel s :: past).length := fun n hn =>
    (h.born n hn).trans (Nat.lt_succ_self _)
  cases hs : d.sources.get? s with
  | none =>
      rw [SignalDesk.cancel, hs]
      refine ⟨h.lineage, h.held, fun l => ?_, h.raised, hborn, h.distinct⟩
      simp [called_cancel, h.lineage_of_no_source hs, h.called]
  | some n =>
      have hshown : shown (d.signals.raise n) birth = shown d.signals birth := by
        funext t
        cases t with
        | never => rfl
        | signal m => simp only [shown, Signals.lineage_raise]
      rw [SignalDesk.cancel, hs]
      refine ⟨fun x => ?_, h.held, fun l => ?_, fun m hm => ?_, hborn, h.distinct⟩
      · rw [hshown]
        exact h.lineage x
      · rw [hshown, called_cancel, h.lineage_of_source hs, h.called]
        simp [Signals.raise, eq_comm]
      · rcases List.mem_cons.mp hm with rfl | hm
        · exact h.source_lt hs
        · exact h.raised m hm

theorem wait (h : Traces past d birth) (t a : String) :
    Traces (.wait t a :: past) (d.wait t a) birth := by
  simp only [SignalDesk.wait]
  split
  · exact h.stay nofun rfl rfl rfl
  · exact h.stay nofun rfl rfl rfl

/-- Every operation leaves a desk that shows what its history says. -/
theorem perform (h : Traces past d birth) (op : Op) :
    ∃ birth', Traces (op :: past) (op.perform d) birth' := by
  cases op with
  | source a => exact ⟨_, h.source a⟩
  | child p a => exact h.child p a
  | token s t => exact ⟨birth, h.token s t⟩
  | idle t => exact ⟨birth, h.rebind nofun rfl (d.observed?_insert_token t _) rfl nofun⟩
  | cloneSource s a => exact ⟨birth, h.cloneSource s a⟩
  | cloneToken t u => exact ⟨birth, h.cloneToken t u⟩
  | cancel s => exact ⟨birth, h.cancel s⟩
  | drop s => exact ⟨birth, h.rebind nofun rfl (d.observed?_dropSource s) rfl nofun⟩
  | wait t a => exact ⟨birth, h.wait t a⟩

/-! ### What is reported -/

/-- In the lineages of the signals there are, a signal is known by the operation that made it. -/
theorem shown_suffix {n m : Nat} (h : Traces past d birth) (hn : n < d.signals.size)
    (hm : m < d.signals.size) :
    shown d.signals birth (.signal m) <:+ shown d.signals birth (.signal n) ↔
      m ∈ d.signals.lineage n := by
  constructor
  · intro hs
    have hmem := hs.mem (List.mem_map_of_mem (d.signals.mem_lineage_self m))
    obtain ⟨j, hj, heq⟩ := List.mem_map.mp hmem
    obtain rfl := h.distinct j ((Signals.le_of_mem_lineage hj).trans_lt hn) m hm heq
    exact hj
  · intro hmem
    exact (Signals.mem_lineage_iff.mp hmem).map birth

theorem cancelled_iff (h : Traces past d birth) {t : CancelToken}
    (ht : ∀ n, t = .signal n → n < d.signals.size) :
    d.isCancelled t = true ↔ Cancelled past (shown d.signals birth t) := by
  cases t with
  | never =>
      refine iff_of_false Bool.false_ne_true ?_
      rintro ⟨k, hk, hsuffix⟩
      -- a lineage of a source has the source in it
      obtain ⟨n, -, rfl⟩ := (h.called k).mp hk
      rw [shown, shown, List.suffix_nil, List.map_eq_nil_iff] at hsuffix
      exact List.ne_nil_of_mem (d.signals.mem_lineage_self n) hsuffix
  | signal n =>
      rw [isCancelled, Signals.isCancelled_iff]
      constructor
      · rintro ⟨m, hm, hmem⟩
        exact ⟨_, (h.called _).mpr ⟨m, hm, rfl⟩,
          (h.shown_suffix (ht n rfl) (h.raised m hm)).mpr hmem⟩
      · rintro ⟨k, hk, hsuffix⟩
        obtain ⟨m, hm, rfl⟩ := (h.called k).mp hk
        exact ⟨m, hm, (h.shown_suffix (ht n rfl) (h.raised m hm)).mp hsuffix⟩

theorem reports_iff (h : Traces past d birth) {x : Name} :
    d.Reports x ↔ ∃ l, lineage? past x = some l ∧ Cancelled past l := by
  rw [SignalDesk.reports_iff, h.lineage x]
  constructor
  · rintro ⟨t, ht, hc⟩
    refine ⟨_, by rw [ht]; rfl, (h.cancelled_iff fun n hn => ?_).mp hc⟩
    exact h.held x n (hn ▸ ht)
  · rintro ⟨l, hl, hc⟩
    obtain ⟨t, ht, rfl⟩ := Option.map_eq_some_iff.mp hl
    exact ⟨t, ht, (h.cancelled_iff fun n hn => h.held x n (hn ▸ ht)).mpr hc⟩

end Traces

/-- After every history the desk shows what the history says. -/
theorem traces_after (past : List Op) : ∃ birth, Traces past (after past) birth := by
  induction past with
  | nil => exact ⟨id, traces_nil⟩
  | cons op past ih =>
      obtain ⟨birth, h⟩ := ih
      exact h.perform op

/-- A name is reported if and only if `cancel` was called on its source or on one above it. -/
theorem reports_after {x : Name} :
    (after past).Reports x ↔ ∃ l, lineage? past x = some l ∧ Cancelled past l := by
  obtain ⟨birth, h⟩ := traces_after past
  exact h.reports_iff

theorem reports_of_lineage? {x : Name} (hx : lineage? past x = some l) :
    (after past).Reports x ↔ Cancelled past l := by
  simp [reports_after, hx]

/-- **Cancellation reaches exactly the descendants.**  Whatever was done at a desk, the source or
token held under a name is reported as cancelled if and only if `cancel` was called on the source it
was derived from or on one above that.  Once it is cancelled, so are for good its source and all
below it, whatever names they have, and a child made of a cancelled source is cancelled at once.  A
further call of `cancel` changes only what is reported of its source and of those below it: nothing
above that source, and nothing that descends from a source above it through another child. -/
theorem cancel_reaches_descendants (past : List Op) :
    (∀ x, (after past).Reports x ↔ ∃ l, lineage? past x = some l ∧ Cancelled past l) ∧
    (∀ x l, lineage? past x = some l → (after past).Reports x →
      ∀ later y l', lineage? (later ++ past) y = some l' → l <:+ l' →
        (after (later ++ past)).Reports y) ∧
    (∀ p a, (after past).Reports (.source p) → (after (.child p a :: past)).Reports (.source a)) ∧
    ∀ s k, lineage? past (.source s) = some k → ∀ x l, lineage? past x = some l →
      ((after (.cancel s :: past)).Reports x ↔ (after past).Reports x ∨ k <:+ l) ∧
      (l <:+ k ∧ l ≠ k ∨ Parted k l →
        ((after (.cancel s :: past)).Reports x ↔ (after past).Reports x)) := by
  refine ⟨fun x => reports_after, ?_, ?_, ?_⟩
  · intro x l hx hr later y l' hy hll'
    have hc := (reports_of_lineage? hx).mp hr
    exact (reports_of_lineage? hy).mpr (hc.mono.below hll')
  · intro p a hr
    obtain ⟨l, hp, hc⟩ := reports_after.mp hr
    have ha : lineage? (.child p a :: past) (.source a) = some (past.length :: l) := by
      simp only [lineage?, derive, hp, Function.update_self]
    have hc' : Cancelled ([.child p a] ++ past) l := hc.mono
    exact (reports_of_lineage? ha).mpr (hc'.below (List.suffix_cons _ _))
  · intro s k hs x l hx
    -- `cancel` binds no name
    have hx' : lineage? (.cancel s :: past) x = some l := hx
    have hiff : (after (.cancel s :: past)).Reports x ↔ (after past).Reports x ∨ k <:+ l := by
      rw [reports_of_lineage? hx', reports_of_lineage? hx, cancelled_cancel hs]
    refine ⟨hiff, fun hbeside => hiff.trans (or_iff_left ?_)⟩
    rcases hbeside with ⟨hlk, hne⟩ | hparted
    · exact fun hkl => hne (hlk.eq_of_length_le hkl.length_le)
    · exact hparted.not_suffix

/-- A source with two children.  The left one has a second name, and a child that a token
observes. -/
def forked : List Op :=
  [.cloneSource "left" "twin", .token "leaf" "watch", .child "left" "leaf", .child "root" "right",
    .child "root" "left", .source "root"]

/-- `cancel` by the second name of the left child reaches the token below it, also once the child is
let go and below a child made later, but neither the parent nor the right child. -/
theorem cancel_reaches_descendants_forked :
    lineage? forked (.source "root") = some [0] ∧ lineage? forked (.source "twin") = some [1, 0] ∧
    lineage? forked (.source "right") = some [2, 0] ∧
    lineage? forked (.token "watch") = some [3, 1, 0] ∧ Parted [1, 0] [2, 0] ∧
    (after (.cancel "twin" :: forked)).Reports (.token "watch") ∧
    ¬ (after (.cancel "twin" :: forked)).Reports (.source "root") ∧
    ¬ (after (.cancel "twin" :: forked)).Reports (.source "right") ∧
    (after (.drop "left" :: .cancel "twin" :: forked)).Reports (.token "watch") ∧
    (after (.child "left" "late" :: .cancel "twin" :: forked)).Reports (.source "late") := by
  have hroot : lineage? forked (.source "root") = some [0] := by decide
  have htwin : lineage? forked (.source "twin") = some [1, 0] := by decide
  have hright : lineage? forked (.source "right") = some [2, 0] := by decide
  have hwatch : lineage? forked (.token "watch") = some [3, 1, 0] := by decide
  have hparted : Parted [1, 0] [2, 0] := ⟨1, 2, [0], by decide, List.suffix_rfl, List.suffix_rfl⟩
  obtain ⟨hreports, -, -, hcancel⟩ := cancel_reaches_descendants forked
  obtain ⟨-, hstays, hborn, -⟩ := cancel_reaches_descendants (.cancel "twin" :: forked)
  have hquiet : ∀ x, ¬ (after forked).Reports x := by
    intro x hx
    obtain ⟨l, -, k, ⟨s, before, hb, -⟩, -⟩ := (hreports x).mp hx
    simpa [forked] using hb.mem List.mem_cons_self
  have hcancelled : (after (.cancel "twin" :: forked)).Reports (.token "watch") :=
    (hcancel _ _ htwin _ _ hwatch).1.mpr (.inr (by decide))
  refine ⟨hroot, htwin, hright, hwatch, hparted, hcancelled, ?_, ?_, ?_, ?_⟩
  · rw [(hcancel _ _ htwin _ _ hroot).2 (.inl (by decide))]
    exact hquiet _
  · rw [(hcancel _ _ htwin _ _ hright).2 (.inr hparted)]
    exact hquiet _
  · exact hstays _ _ hwatch hcancelled [.drop "left"] _ _ (by decide) List.suffix_rfl
  · exact hborn _ _ ((hcancel _ _ htwin _ [1, 0] (by decide)).1.mpr (.inr List.suffix_rfl))

end SignalDesk

end Clearance
