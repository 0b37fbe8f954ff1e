/-
The filter of repeated hooks over a stream of audit events, whose times may come in any order. A slot of the table
holds the last event of the slot that was let through, so an event is dropped on account of that one alone. Its age
is a difference of 64 bits: besides the events not later and less than 200 ms before, it takes in those at the end of
the clock's range for an event at its start.
-/
import KnIg.Ebpf.Audit
import KnIg.Lib.SlotFilter

namespace KnIg.Ebpf

open Lib KnIg.Agent

/-! ## Streams -/

def AuditEvent.dedupEntry (e : AuditEvent) : HookDedupEntry := ⟨e.id, e.opMask, e.tsNs⟩

def AuditEvent.dedupSlot (e : AuditEvent) : Fin hookDedupCap := hookDedupSlot e.id e.opMask

/-- `g_hook_dedup` after a stream of events. -/
def dedupAfter (events : List AuditEvent) : HookDedup :=
  events.foldl (fun t e => (hookDedupCheck t e.id e.opMask e.tsNs).2) fun _ => none

/-- `hook_dedup_check` returns 1 for the event after those before it. -/
def Suppressed (before : List AuditEvent) (e : AuditEvent) : Prop :=
  (hookDedupCheck (dedupAfter before) e.id e.opMask e.tsNs).1 = true

/-- One of the events was `d`, and it was let through. -/
def PassedAmong (events : List AuditEvent) (d : AuditEvent) : Prop :=
  ∃ before behind, events = before ++ d :: behind ∧ ¬ Suppressed before d

/-- The same operation on the same inode, not later than `e` and less than 200 ms before it. -/
structure Repeats (d e : AuditEvent) : Prop where
  id : d.id = e.id
  opMask : d.opMask = e.opMask
  notLater : d.tsNs ≤ e.tsNs
  recent : e.tsNs.toNat - d.tsNs.toNat < 200000000

/-- The same, where the clock went round between the two and less than 200 ms passed. -/
structure RepeatsRound (d e : AuditEvent) : Prop where
  id : d.id = e.id
  opMask : d.opMask = e.opMask
  recent : e.tsNs.toNat + 2 ^ 64 < d.tsNs.toNat + 200000000

/-- The events that the reader handles in a run. -/
def auditEvents : List AuditAct → List AuditEvent
  | [] => []
  | .event _ e :: acts => e :: auditEvents acts
  | .add _ _ _ _ :: acts => auditEvents acts
  | .remove _ :: acts => auditEvents acts

/-! ## The filter -/

/-- The age of 64 bits is below 200 ms. -/
theorem age_lt_iff (t u : UInt64) :
    t - u < hookDedupWinNs ↔
      (u ≤ t ∧ t.toNat - u.toNat < 200000000) ∨ t.toNat + 2 ^ 64 < u.toNat + 200000000 := by
  have ht := t.toNat_lt
  have hu := u.toNat_lt
  have hwin : hookDedupWinNs.toNat = 200000000 := rfl
  rw [UInt64.lt_iff_toNat_lt, UInt64.le_iff_toNat_le, UInt64.toNat_sub, hwin]
  omega

/-- What the test of `hook_dedup_check` makes of the entry in an event's slot. -/
def dedupDrops (held : Option HookDedupEntry) (e : AuditEvent) : Bool :=
  match held with
  | none => false
  | some d => d.id = e.id ∧ d.opMask = e.opMask ∧ e.tsNs - d.lastTsNs < hookDedupWinNs

theorem hookDedupCheck_eq (t : HookDedup) (e : AuditEvent) :
    hookDedupCheck t e.id e.opMask e.tsNs =
      SlotFilter.check AuditEvent.dedupSlot AuditEvent.dedupEntry dedupDrops t e := rfl

theorem dedupAfter_eq (events : List AuditEvent) :
    dedupAfter events = SlotFilter.after AuditEvent.dedupSlot AuditEvent.dedupEntry dedupDrops events := rfl

theorem suppressed_iff_not_passes {before : List AuditEvent} {e : AuditEvent} :
    Suppressed before e ↔ ¬ SlotFilter.Passes AuditEvent.dedupSlot AuditEvent.dedupEntry dedupDrops before e := by
  unfold Suppressed
  rw [hookDedupCheck_eq, dedupAfter_eq, SlotFilter.check, SlotFilter.Passes, Bool.not_eq_false]
  split <;> simp_all

theorem dedupDrops_iff {d e : AuditEvent} :
    dedupDrops (some d.dedupEntry) e = true ↔ Repeats d e ∨ RepeatsRound d e := by
  simp only [dedupDrops, AuditEvent.dedupEntry, age_lt_iff, decide_eq_true_eq]
  constructor
  · rintro ⟨hid, hop, ⟨hle, hrecent⟩ | hround⟩
    · exact .inl ⟨hid, hop, hle, hrecent⟩
    · exact .inr ⟨hid, hop, hround⟩
  · rintro (h | h)
    · exact ⟨h.id, h.opMask, .inl ⟨h.notLater, h.recent⟩⟩
    · exact ⟨h.id, h.opMask, .inr h.recent⟩

/-- An event is dropped exactly when the last one of its slot that was let through is near enough before it. -/
theorem suppressed_iff {before : List AuditEvent} {e : AuditEvent} :
    Suppressed before e ↔
      ∃ d, SlotFilter.LastPassed AuditEvent.dedupSlot AuditEvent.dedupEntry dedupDrops before e.dedupSlot d ∧
        (Repeats d e ∨ RepeatsRound d e) := by
  rw [suppressed_iff_not_passes, SlotFilter.not_passes_iff fun _ => rfl]
  simp only [dedupDrops_iff]

/-! ## The reader -/

namespace AuditReader

theorem dedup_handleAuditEvent (ctx : AuditContext) (s : AuditReader) (e : AuditEvent) :
    (handleAuditEvent ctx s e).1.dedup = (hookDedupCheck s.dedup e.id e.opMask e.tsNs).2 := by
  unfold handleAuditEvent
  split
  · next h => rw [h]
  · next h =>
    rw [h]
    split <;> rfl

/-- Only the events of a run reach the filter. -/
theorem dedup_run (acts : List AuditAct) (s : AuditReader) :
    (acts.foldl step s).dedup =
      (auditEvents acts).foldl (fun t e => (hookDedupCheck t e.id e.opMask e.tsNs).2) s.dedup := by
  induction acts generalizing s with
  | nil => rfl
  | cons act acts ih =>
    rw [List.foldl_cons, ih]
    cases act with
    | event ctx e => rw [auditEvents, List.foldl_cons, step, dedup_handleAuditEvent]
    | add id path mask block => rfl
    | remove id => rfl

theorem pushed_handleAuditEvent (ctx : AuditContext) (s : AuditReader) (e : AuditEvent) :
    (handleAuditEvent ctx s e).2.isSome ↔ (hookDedupCheck s.dedup e.id e.opMask e.tsNs).1 = false := by
  unfold handleAuditEvent
  split
  · next h => simp [h]
  · next h =>
    rw [h]
    split <;> simp

end AuditReader

/-! ## What is dropped -/

/-- In every stream an event is dropped only after one of the same operation on the same inode that was let through
less than 200 ms before it on the clock of 64 bits; where there is none, the reader pushes the event. -/
theorem suppressed_only_repeats (before : List AuditEvent) (e : AuditEvent) :
    (Suppressed before e → ∃ d, PassedAmong before d ∧ (Repeats d e ∨ RepeatsRound d e)) ∧
      ((∀ d, PassedAmong before d → ¬ Repeats d e ∧ ¬ RepeatsRound d e) →
        ∀ ctx policy acts, auditEvents acts = before →
          (handleAuditEvent ctx (acts.foldl AuditReader.step ⟨policy, fun _ => none⟩) e).2.isSome) := by
  have honly : Suppressed before e → ∃ d, PassedAmong before d ∧ (Repeats d e ∨ RepeatsRound d e) := by
    intro h
    obtain ⟨d, hlast, hnear⟩ := suppressed_iff.1 h
    obtain ⟨front, behind, hsplit, hpass⟩ := hlast.mem
    exact ⟨d, ⟨front, behind, hsplit, fun hsup => suppressed_iff_not_passes.1 hsup hpass⟩, hnear⟩
  refine ⟨honly, ?_⟩
  rintro hnone ctx policy acts rfl
  rw [AuditReader.pushed_handleAuditEvent, AuditReader.dedup_run]
  by_contra hsup
  obtain ⟨d, hd, hnear⟩ := honly ((Bool.not_eq_false _).mp hsup)
  exact hnear.elim (hnone d hd).1 (hnone d hd).2

/-! ## Round the clock -/

/-- A write that the hooks see at the last moment of the clock. -/
def lastMoment : AuditEvent :=
  ⟨shadow, 4021, 0, igEbpfOpWrite, igHookFileOpen, 0, ⟨ascii "vi", by decide⟩, 18446744073709551615⟩

/-- The write that they see next, at the first moment of the clock, is dropped. -/
theorem suppressed_firstMoment_fails :
    ¬ ∀ before e, Suppressed before e → ∃ d, PassedAmong before d ∧ Repeats d e := by
  intro h
  have hnear : -lastMoment.tsNs < hookDedupWinNs := by decide
  have hsup : Suppressed [lastMoment] { lastMoment with tsNs := 0 } := by
    simp [Suppressed, dedupAfter, hookDedupCheck, suppresses, hnear]
  obtain ⟨d, ⟨front, behind, hsplit, -⟩, hrepeats⟩ := h _ _ hsup
  have hd : d ∈ [lastMoment] := hsplit ▸ List.mem_append_right front List.mem_cons_self
  obtain rfl := List.mem_singleton.1 hd
  exact absurd hrepeats.notLater (by decide)

end KnIg.Ebpf
