import FlowSplice.Lib.Backlog
import FlowSplice.Lib.Keyed

/-! The upload of the statistics outbox: `pending_reports` and `acknowledge_report` of
`flowsplice-storage/src/lib.rs`, and the sessions of a Travel, a Home and a Relay that call them. -/
namespace FlowSplice.Statistics

/-- The rows of `Table::ReportOutbox`, in the order of their keys. -/
structure Outbox (κ β : Type*) [LinearOrder κ] where
  entries : List (κ × β)
  sorted : entries.Pairwise fun a b => a.1 < b.1

/-- A control session with the Server: the keys of the reports that it has sent, by their digests,
and what it knows of the outbox. -/
structure ReportSession (κ δ : Type*) where
  reportKeys : Table δ κ := ∅
  knownPending : Bool := true

inductive ReportSender where
  | travel
  | home
  | relay
deriving DecidableEq, Repr

/-- `validate_statistics_time_window`. -/
def inTimeWindow (bucketStartUnixSecs now : ℕ) : Bool :=
  !(decide (now + 300 < bucketStartUnixSecs) ||
    decide (90 * 24 * 60 * 60 < now - bucketStartUnixSecs))

/-- `statistics_outbox_scan_needed`. -/
def statisticsOutboxScanNeeded (staged : ℕ) (knownPending inFlight : Bool) : Bool :=
  decide (0 < staged) || (knownPending && !inFlight)

namespace Outbox
variable {κ β δ : Type*} [LinearOrder κ] [DecidableEq δ] (outbox : Outbox κ β) (digest : β → δ)

def pendingReports (limit : ℕ) : List (κ × β) := outbox.entries.take limit

def get (key : κ) : Option β := (outbox.entries.find? (·.1 = key)).map (·.2)

def delete (key : κ) : Outbox κ β where
  entries := outbox.entries.filter (·.1 ≠ key)
  sorted := outbox.sorted.sublist List.filter_sublist

def acknowledgeReport (key : κ) (digestSha256 : δ) : Outbox κ β × Bool :=
  match outbox.get key with
  | none => (outbox, false)
  | some report =>
    if digest report ≠ digestSha256 then (outbox, false) else (outbox.delete key, true)

/-- The reports of a Travel that are not in flight. -/
def sendNew (digest : β → δ) : List (κ × β) → Table δ κ → List (κ × β) × Table δ κ
  | [], reportKeys => ([], reportKeys)
  | e :: reports, reportKeys =>
    if (reportKeys.lookup (digest e.2)).isSome then sendNew digest reports reportKeys
    else
      let rest := sendNew digest reports (reportKeys.insert (digest e.2) e.1)
      (e :: rest.1, rest.2)

/-- The statistics tick of a session, after its flush. A Home and a Relay send what is in flight
again. -/
def sendReports (sender : ReportSender) (staged : ℕ) (session : ReportSession κ δ) :
    List (κ × β) × ReportSession κ δ :=
  let reports := outbox.pendingReports 16
  match sender with
  | .travel =>
    if statisticsOutboxScanNeeded staged session.knownPending (session.reportKeys.len != 0) then
      let sent := sendNew digest reports session.reportKeys
      (sent.1, { reportKeys := sent.2, knownPending := !reports.isEmpty })
    else ([], session)
  | .home | .relay =>
    (reports, { session with
      reportKeys := session.reportKeys.insertAll (reports.map fun e => (digest e.2, e.1)) })

/-- A `StatisticsReportAck`. Only a Travel forgets a report that was rejected. -/
def receiveAck (sender : ReportSender) (session : ReportSession κ δ) (digestSha256 : δ)
    (accepted : Bool) : Outbox κ β × ReportSession κ δ :=
  if accepted then
    match session.reportKeys.lookup digestSha256 with
    | none => (outbox, session)
    | some key =>
      ((outbox.acknowledgeReport digest key digestSha256).1,
        { session with reportKeys := session.reportKeys.erase digestSha256 })
  else
    match sender with
    | .travel => (outbox, { session with reportKeys := session.reportKeys.erase digestSha256 })
    | .home | .relay => (outbox, session)

/-- The answers to sent reports, in the order in which they come. -/
def receiveAcks (sender : ReportSender) (accepts : β → Bool) :
    List (κ × β) → Outbox κ β × ReportSession κ δ → Outbox κ β × ReportSession κ δ
  | [], s => s
  | e :: answers, s =>
    receiveAcks sender accepts answers
      (s.1.receiveAck digest sender s.2 (digest e.2) (accepts e.2))

/-- A round: some session offers the reports that `pending_reports` returns, and each of them is
answered, in any order. -/
def Round (accepts : β → Bool) (outbox : Outbox κ β) (offered : List (κ × β))
    (next : Outbox κ β) : Prop :=
  offered = outbox.pendingReports 16 ∧
    ∃ sender staged session sent answers,
      outbox.sendReports digest sender staged session = (offered, sent) ∧ answers.Perm offered ∧
      (receiveAcks digest sender accepts answers (outbox, sent)).1 = next

/-- Rounds without a report staged in between, and what each of them offers. -/
inductive Rounds (accepts : β → Bool) : Outbox κ β → List (List (κ × β)) → Outbox κ β → Prop
  | nil (outbox : Outbox κ β) : Rounds accepts outbox [] outbox
  | cons {outbox next last : Outbox κ β} {offered : List (κ × β)} {rounds : List (List (κ × β))} :
    Round digest accepts outbox offered next → Rounds accepts next rounds last →
    Rounds accepts outbox (offered :: rounds) last

/-- After so many rounds that each report could have been offered in one of them, each was; and
every report that the Server accepts is offered at some time. -/
def Progresses (accepts : β → Bool) : Prop :=
  (∀ rounds last, Rounds digest accepts outbox rounds last →
    rounds.length = (outbox.entries.length + 15) / 16 →
    ∀ e ∈ outbox.entries, e ∈ rounds.flatten) ∧
  ∀ e ∈ outbox.entries, accepts e.2 = true →
    ∃ n, ∀ rounds last, Rounds digest accepts outbox rounds last → n ≤ rounds.length →
      e ∈ rounds.flatten

variable {outbox digest} {accepts : β → Bool} {key : κ} {report : β}
  {offered answers : List (κ × β)} {next last : Outbox κ β} {rounds : List (List (κ × β))}

theorem keys_nodup (outbox : Outbox κ β) : (outbox.entries.map Prod.fst).Nodup :=
  List.pairwise_map.mpr (outbox.sorted.imp ne_of_lt)

theorem entries_nodup (outbox : Outbox κ β) : outbox.entries.Nodup :=
  outbox.keys_nodup.of_map _

theorem eq_of_key {a b : κ × β} (ha : a ∈ outbox.entries) (hb : b ∈ outbox.entries)
    (h : a.1 = b.1) : a = b :=
  List.inj_on_of_nodup_map outbox.keys_nodup ha hb h

theorem get_eq_some : outbox.get key = some report ↔ (key, report) ∈ outbox.entries := by
  unfold get
  rw [Option.map_eq_some_iff]
  constructor
  · intro h
    obtain ⟨e, he, rfl⟩ := h
    obtain ⟨hmem, rfl⟩ := (Keyed.find_iff outbox.keys_nodup).mp he
    exact hmem
  · intro h
    exact ⟨(key, report), (Keyed.find_iff outbox.keys_nodup).mpr ⟨h, rfl⟩, rfl⟩

theorem acknowledgeReport_eq {e : κ × β} (he : e ∈ outbox.entries) :
    outbox.acknowledgeReport digest e.1 (digest e.2) = (outbox.delete e.1, true) := by
  unfold acknowledgeReport
  rw [get_eq_some.mpr he]
  exact if_neg (not_not.mpr rfl)

/-- What is left of the outbox when these reports have been answered. -/
def answered (accepts : β → Bool) (answers : List (κ × β)) (x : κ × β) : Bool :=
  !(accepts x.2 && decide (x.1 ∈ answers.map Prod.fst))

theorem answered_iff {x : κ × β} : answered accepts answers x = true ↔
    ¬ (accepts x.2 = true ∧ x.1 ∈ answers.map Prod.fst) := by
  unfold answered
  rw [Bool.not_eq_true', ← Bool.not_eq_true, Bool.and_eq_true, decide_eq_true_eq]

theorem receiveAck_accepted {sender : ReportSender} {session : ReportSession κ δ} {e : κ × β}
    (he : e ∈ outbox.entries) (hkey : session.reportKeys.lookup (digest e.2) = some e.1) :
    outbox.receiveAck digest sender session (digest e.2) true =
      (outbox.delete e.1, { session with
        reportKeys := session.reportKeys.erase (digest e.2) }) := by
  unfold receiveAck
  rw [if_pos rfl, hkey]
  dsimp only
  rw [acknowledgeReport_eq he]

theorem receiveAck_rejected {sender : ReportSender} {session : ReportSession κ δ} {d : δ} :
    ∃ session', outbox.receiveAck digest sender session d false = (outbox, session') ∧
      ∀ d' ≠ d, session'.reportKeys.lookup d' = session.reportKeys.lookup d' := by
  cases sender with
  | travel => exact ⟨_, rfl, fun d' hd' => AList.lookup_erase_ne hd'⟩
  | home => exact ⟨_, rfl, fun _ _ => rfl⟩
  | relay => exact ⟨_, rfl, fun _ _ => rfl⟩

/-- The answers delete the accepted reports, and nothing else. -/
theorem receiveAcks_entries {sender : ReportSender} {session : ReportSession κ δ}
    (hmem : ∀ e ∈ answers, e ∈ outbox.entries)
    (hdigest : (answers.map fun e => digest e.2).Nodup)
    (hkeys : ∀ e ∈ answers, session.reportKeys.lookup (digest e.2) = some e.1) :
    (receiveAcks digest sender accepts answers (outbox, session)).1.entries =
      outbox.entries.filter (answered accepts answers) := by
  induction answers generalizing outbox session with
  | nil =>
    symm
    apply List.filter_eq_self.mpr
    intro x _
    exact answered_iff.mpr fun h => List.not_mem_nil h.2
  | cons e answers ih =>
    rw [List.map_cons, List.nodup_cons] at hdigest
    have he := hmem e List.mem_cons_self
    have hother : ∀ a ∈ answers, digest a.2 ≠ digest e.2 := fun a ha heq =>
      hdigest.1 (heq ▸ List.mem_map_of_mem ha)
    have hrest : ∀ a ∈ answers, a ∈ outbox.entries := fun a ha =>
      hmem a (List.mem_cons_of_mem _ ha)
    have hkept : ∀ a ∈ answers, session.reportKeys.lookup (digest a.2) = some a.1 := fun a ha =>
      hkeys a (List.mem_cons_of_mem _ ha)
    show (receiveAcks digest sender accepts answers
      (outbox.receiveAck digest sender session (digest e.2) (accepts e.2))).1.entries = _
    cases haccepts : accepts e.2 with
    | true =>
      rw [receiveAck_accepted he (hkeys e List.mem_cons_self)]
      have hleft : ∀ a ∈ answers, a ∈ (outbox.delete e.1).entries := by
        intro a ha
        have hne : a.1 ≠ e.1 := fun hsame =>
          hother a ha (by rw [eq_of_key (hrest a ha) he hsame])
        exact List.mem_filter.mpr ⟨hrest a ha, decide_eq_true hne⟩
      have herased : ∀ a ∈ answers,
          (session.reportKeys.erase (digest e.2)).lookup (digest a.2) = some a.1 := by
        intro a ha
        rw [AList.lookup_erase_ne (hother a ha)]
        exact hkept a ha
      rw [ih hleft hdigest.2 herased]
      show (outbox.entries.filter _).filter _ = _
      rw [List.filter_filter]
      apply List.filter_congr
      intro x hx
      rw [Bool.eq_iff_iff, Bool.and_eq_true, answered_iff, answered_iff, decide_eq_true_eq,
        List.map_cons, List.mem_cons]
      by_cases hsame : x.1 = e.1
      · rw [eq_of_key hx he hsame]
        simp [haccepts]
      · simp [hsame]
    | false =>
      obtain ⟨session', hreject, hsession⟩ :=
        @receiveAck_rejected κ β δ _ _ outbox digest sender session (digest e.2)
      have hkept' : ∀ a ∈ answers, session'.reportKeys.lookup (digest a.2) = some a.1 := by
        intro a ha
        rw [hsession _ (hother a ha)]
        exact hkept a ha
      rw [hreject, ih hrest hdigest.2 hkept']
      apply List.filter_congr
      intro x hx
      rw [Bool.eq_iff_iff, answered_iff, answered_iff, List.map_cons, List.mem_cons]
      by_cases hsame : x.1 = e.1
      · rw [eq_of_key hx he hsame]
        simp [haccepts]
      · simp [hsame]

omit [LinearOrder κ] in
theorem sendNew_keeps {reports : List (κ × β)} {reportKeys : Table δ κ} {d : δ}
    (h : reportKeys.lookup d = some key) :
    (sendNew digest reports reportKeys).2.lookup d = some key := by
  induction reports generalizing reportKeys with
  | nil => exact h
  | cons e reports ih =>
    unfold sendNew
    split_ifs with hknown
    · exact ih h
    · apply ih
      rw [AList.lookup_insert_ne ?_]
      · exact h
      · rintro rfl
        rw [h] at hknown
        exact hknown rfl

omit [LinearOrder κ] in
theorem length_sendNew_le {reports : List (κ × β)} {reportKeys : Table δ κ} :
    (sendNew digest reports reportKeys).1.length ≤ reports.length := by
  induction reports generalizing reportKeys with
  | nil => exact le_rfl
  | cons e reports ih =>
    unfold sendNew
    split_ifs
    · exact Nat.le_succ_of_le ih
    · exact Nat.succ_le_succ ih

omit [LinearOrder κ] in
/-- A Travel that sends all of the reports has put down the key of each. -/
theorem lookup_sendNew {reports : List (κ × β)} {reportKeys : Table δ κ}
    (h : (sendNew digest reports reportKeys).1 = reports) {e : κ × β} (he : e ∈ reports) :
    (sendNew digest reports reportKeys).2.lookup (digest e.2) = some e.1 := by
  induction reports generalizing reportKeys with
  | nil => cases he
  | cons a reports ih =>
    unfold sendNew at h ⊢
    split_ifs at h ⊢ with hknown
    · have hle := congrArg List.length h
      have hlength : (sendNew digest reports reportKeys).1.length ≤ reports.length :=
        length_sendNew_le
      rw [List.length_cons] at hle
      omega
    · dsimp only at h ⊢
      rcases List.mem_cons.mp he with rfl | he
      · exact sendNew_keeps (AList.lookup_insert _)
      · exact ih (List.cons.inj h).2 he

/-- In a round every offered report can be found by its digest. -/
theorem lookup_sendReports {sender : ReportSender} {staged : ℕ} {session sent : ReportSession κ δ}
    (hdigest : (outbox.entries.map fun e => digest e.2).Nodup)
    (h : outbox.sendReports digest sender staged session = (outbox.pendingReports 16, sent))
    {e : κ × β} (he : e ∈ outbox.pendingReports 16) :
    sent.reportKeys.lookup (digest e.2) = some e.1 := by
  have hinsertAll : (session.reportKeys.insertAll
      ((outbox.pendingReports 16).map fun e => (digest e.2, e.1))).lookup (digest e.2) =
      some e.1 := by
    apply Table.lookup_insertAll_of_mem
    · rw [List.map_map]
      exact hdigest.sublist ((List.take_sublist 16 _).map _)
    · exact List.mem_map.mpr ⟨e, he, rfl⟩
  unfold sendReports at h
  cases sender with
  | travel =>
    dsimp only at h
    split_ifs at h
    · rw [Prod.mk.injEq] at h
      rw [← h.2]
      exact lookup_sendNew h.1 he
    · rw [Prod.mk.injEq] at h
      rw [← h.1] at he
      cases he
  | home =>
    cases h
    exact hinsertAll
  | relay =>
    cases h
    exact hinsertAll

/-- A round takes the accepted reports off the first sixteen. -/
theorem Round.entries (hdigest : (outbox.entries.map fun e => digest e.2).Nodup)
    (h : Round digest accepts outbox offered next) :
    next.entries = Backlog.serve 16 (fun e => !accepts e.2) outbox.entries := by
  obtain ⟨rfl, sender, staged, session, sent, answers, hsend, hperm, rfl⟩ := h
  have hmem : ∀ e ∈ answers, e ∈ outbox.pendingReports 16 := fun e he => hperm.mem_iff.mp he
  have hnodup : (answers.map fun e => digest e.2).Nodup := by
    rw [(hperm.map _).nodup_iff]
    exact hdigest.sublist ((List.take_sublist 16 _).map _)
  rw [receiveAcks_entries (fun e he => List.mem_of_mem_take (hmem e he)) hnodup
    (fun e he => lookup_sendReports hdigest hsend (hmem e he))]
  unfold Backlog.serve
  conv_lhs => rw [← List.take_append_drop 16 outbox.entries]
  rw [List.filter_append]
  congr 1
  · apply List.filter_congr
    intro x hx
    have hx : x.1 ∈ answers.map Prod.fst := List.mem_map_of_mem (hperm.mem_iff.mpr hx)
    rw [Bool.eq_iff_iff, answered_iff]
    simp [hx]
  · apply List.filter_eq_self.mpr
    intro x hx
    have hx' : x.1 ∉ answers.map Prod.fst := by
      intro h
      obtain ⟨a, ha, hsame⟩ := List.mem_map.mp h
      have hfirst := hmem a ha
      have heq := eq_of_key (List.mem_of_mem_take hfirst) (List.mem_of_mem_drop hx) hsame
      rw [heq] at hfirst
      have hsplit := outbox.entries_nodup
      rw [← List.take_append_drop 16 outbox.entries] at hsplit
      exact List.disjoint_of_nodup_append hsplit hfirst hx
    exact answered_iff.mpr fun h => hx' h.2

theorem Round.digests (hdigest : (outbox.entries.map fun e => digest e.2).Nodup)
    (h : Round digest accepts outbox offered next) :
    (next.entries.map fun e => digest e.2).Nodup := by
  have hsublist : List.Sublist next.entries outbox.entries := by
    rw [h.entries hdigest]
    unfold Backlog.serve
    conv_rhs => rw [← List.take_append_drop 16 outbox.entries]
    exact List.filter_sublist.append (List.Sublist.refl _)
  exact hdigest.sublist (hsublist.map _)

/-- The rounds offer what the rounds of a backlog of sixteen places offer. -/
theorem Rounds.mem_iff (hdigest : (outbox.entries.map fun e => digest e.2).Nodup)
    (h : Rounds digest accepts outbox rounds last) {e : κ × β} :
    e ∈ rounds.flatten ↔
      ∃ i < rounds.length, e ∈ Backlog.offered 16 (fun e => !accepts e.2) outbox.entries i := by
  induction h with
  | nil => simp
  | @cons outbox next last offered rounds hround hrest ih =>
    have hserve := hround.entries hdigest
    have hfirst : offered = Backlog.offered 16 (fun e => !accepts e.2) outbox.entries 0 := hround.1
    rw [List.flatten_cons, List.mem_append, ih (hround.digests hdigest), hserve, hfirst]
    constructor
    · intro h
      rcases h with hnow | hlater
      · exact ⟨0, Nat.zero_lt_succ _, hnow⟩
      · obtain ⟨i, hi, he⟩ := hlater
        exact ⟨i + 1, Nat.succ_lt_succ hi, he⟩
    · intro h
      obtain ⟨i, hi, he⟩ := h
      cases i with
      | zero => exact .inl he
      | succ i => exact .inr ⟨i, Nat.lt_of_succ_lt_succ hi, he⟩

/-- There are as many rounds as one likes: every tick of a Home is one, once its reports are
answered. -/
theorem exists_rounds (outbox : Outbox κ β) (digest : β → δ) (accepts : β → Bool) (n : ℕ) :
    ∃ rounds last, Rounds digest accepts outbox rounds last ∧ rounds.length = n := by
  induction n generalizing outbox with
  | zero => exact ⟨[], outbox, .nil outbox, rfl⟩
  | succ n ih =>
    let session : ReportSession κ δ := {}
    let sent := outbox.sendReports digest .home 0 session
    let next := (receiveAcks digest .home accepts sent.1 (outbox, sent.2)).1
    have hround : Round digest accepts outbox sent.1 next :=
      ⟨rfl, .home, 0, session, sent.2, sent.1, rfl, .refl _, rfl⟩
    obtain ⟨rounds, last, hrounds, hlength⟩ := ih next
    exact ⟨sent.1 :: rounds, last, .cons hround hrounds, by rw [List.length_cons, hlength]⟩

theorem everyOffered_iff (hdigest : (outbox.entries.map fun e => digest e.2).Nodup) (n : ℕ) :
    (∀ rounds last, Rounds digest accepts outbox rounds last → rounds.length = n →
      ∀ e ∈ outbox.entries, e ∈ rounds.flatten) ↔
      Backlog.Cuts 16 (fun e => !accepts e.2) outbox.entries n := by
  rw [← Backlog.all_offered_iff outbox.entries_nodup]
  constructor
  · intro h e he
    obtain ⟨rounds, last, hrounds, rfl⟩ := exists_rounds outbox digest accepts n
    exact (hrounds.mem_iff hdigest).mp (h rounds last hrounds rfl e he)
  · intro h rounds last hrounds hlength e he
    rw [hrounds.mem_iff hdigest, hlength]
    exact h e he

theorem eventuallyOffered_iff (hdigest : (outbox.entries.map fun e => digest e.2).Nodup)
    {before after : List (κ × β)} {e : κ × β} (hsplit : outbox.entries = before ++ e :: after) :
    (∃ n, ∀ rounds last, Rounds digest accepts outbox rounds last → n ≤ rounds.length →
      e ∈ rounds.flatten) ↔ (before.filter fun e => !accepts e.2).length < 16 := by
  rw [← Backlog.eventually_offered_iff outbox.entries_nodup hsplit]
  constructor
  · intro h
    obtain ⟨n, hn⟩ := h
    obtain ⟨rounds, last, hrounds, hlength⟩ := exists_rounds outbox digest accepts n
    obtain ⟨i, -, hi⟩ := (hrounds.mem_iff hdigest).mp (hn rounds last hrounds hlength.ge)
    exact ⟨i, hi⟩
  · intro h
    obtain ⟨i, hi⟩ := h
    refine ⟨i + 1, fun rounds last hrounds hlength => ?_⟩
    exact (hrounds.mem_iff hdigest).mpr ⟨i, by omega, hi⟩

/-- The outbox makes progress exactly where its reports can be cut into as many blocks as sixteen
of them make, such that no block and the rejected reports before it are more than sixteen. A report
is offered at some time exactly if fewer than sixteen rejected ones come before it. -/
theorem progresses_iff (hdigest : (outbox.entries.map fun e => digest e.2).Nodup) :
    (outbox.Progresses digest accepts ↔
      Backlog.Cuts 16 (fun e => !accepts e.2) outbox.entries
        ((outbox.entries.length + 15) / 16)) ∧
    ∀ before e after, outbox.entries = before ++ e :: after →
      ((∃ n, ∀ rounds last, Rounds digest accepts outbox rounds last → n ≤ rounds.length →
        e ∈ rounds.flatten) ↔ (before.filter fun e => !accepts e.2).length < 16) := by
  constructor
  · rw [← everyOffered_iff hdigest]
    constructor
    · intro h
      exact h.1
    · intro h
      refine ⟨h, fun e he _ => ?_⟩
      obtain ⟨before, after, hsplit⟩ := List.append_of_mem he
      rw [eventuallyOffered_iff hdigest hsplit, ← Backlog.eventually_offered_iff
        outbox.entries_nodup hsplit]
      have hcuts := (everyOffered_iff hdigest _).mp h
      obtain ⟨i, -, hi⟩ := (Backlog.all_offered_iff outbox.entries_nodup).mpr hcuts e he
      exact ⟨i, hi⟩
  · intro before e after hsplit
    exact eventuallyOffered_iff hdigest hsplit

/-- The reports of so many five-minute buckets. -/
def buckets (n : ℕ) : Outbox ℕ ℕ where
  entries := (List.range n).map fun i => (300 * i, 300 * i)
  sorted := by
    rw [List.pairwise_map]
    exact List.pairwise_lt_range.imp fun h => by omega

/-- Three rejected reports in a short outbox are in nobody's way. -/
theorem progresses_buckets : (buckets 5).Progresses id fun bucket => inTimeWindow bucket 7776800 := by
  have hdigest : ((buckets 5).entries.map fun e => id e.2).Nodup := by decide
  apply (progresses_iff hdigest).1.mpr
  refine ⟨[(buckets 5).entries], by decide, by decide, fun before block after h => ?_⟩
  rcases before with _ | ⟨b, before⟩
  · cases h
    decide
  · simp at h

/-- Sixteen reports are too old for the Server, and the one behind them is not. -/
theorem not_progresses_buckets :
    ¬ (buckets 17).Progresses id fun bucket => inTimeWindow bucket 7780600 := by
  intro h
  have hdigest : ((buckets 17).entries.map fun e => id e.2).Nodup := by decide
  have hsplit : (buckets 17).entries = (buckets 16).entries ++ (4800, 4800) :: [] := by decide
  have hoffered := h.2 (4800, 4800) (by decide) (by decide)
  have hfew := (eventuallyOffered_iff hdigest hsplit).mp hoffered
  exact absurd hfew (by decide)

end Outbox
end FlowSplice.Statistics
