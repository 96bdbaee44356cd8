import Skillsync.Paging
import Skillsync.StateSpec

set_option autoImplicit false

namespace Skillsync

open Fallible

namespace OperationalLog

/-- The id as the signed integer that a page goes on from. -/
def key (log : OperationalLog) : Int := log.id

end OperationalLog

structure OperationalLogPage where
  logs : List OperationalLog
  nextAfterId : Int
  hasMore : Bool
deriving DecidableEq

/-- `logs_page`; the table is in the order of the ids. -/
def StateStore.logsPage (store : StateStore) (afterId : Int) (limit : Nat) : OperationalLogPage :=
  let limit := max 1 (min limit 64)
  let rows :=
    (store.operationalLogs.filter fun log => decide (afterId < log.key)).take (limit + 1)
  let logs := rows.take limit
  ⟨logs, (logs.getLast?.map OperationalLog.key).getD afterId, decide (limit < rows.length)⟩

inductive LogAction
  | append (createdNs : I64) (event : OperationalEvent) (maxLogs : Nat)
  | read (limit : Nat)

/-- A log, and a reader that was given some of its entries; `history` are all the entries that the
log has had. -/
structure LogReader where
  store : StateStore
  history : List OperationalLog
  cursor : Int
  seen : List OperationalLog
deriving DecidableEq

namespace LogReader

/-- The entry that `insert_log` adds. -/
def entry (reader : LogReader) (createdNs : I64) (event : OperationalEvent) : OperationalLog :=
  ⟨reader.store.logSequence + 1, createdNs, event⟩

/-- A failed `append_log` changes nothing; a reader goes on from its last page. -/
def perform (reader : LogReader) : LogAction → LogReader
  | .append createdNs event maxLogs =>
      match reader.store.appendLog createdNs event maxLogs with
      | .error _ => reader
      | .ok store =>
          { reader with
            store := store
            history := reader.history ++ [reader.entry createdNs event] }
  | .read limit =>
      let page := reader.store.logsPage reader.cursor limit
      { reader with cursor := page.nextAfterId, seen := reader.seen ++ page.logs }

def follow (reader : LogReader) (actions : List LogAction) : LogReader :=
  actions.foldl perform reader

end LogReader

/-- The ids of a table are in order, and none is greater than the last one that was used. -/
structure StateStore.Numbered (store : StateStore) : Prop where
  ascending : Paging.Ascending OperationalLog.key store.operationalLogs
  used : ∀ log ∈ store.operationalLogs, log.id ≤ store.logSequence

namespace StateStore

variable {store next : StateStore} {createdNs : I64} {event : OperationalEvent} {maxLogs : Nat}

theorem logsPage_logs (store : StateStore) (afterId : Int) (limit : Nat) :
    (store.logsPage afterId limit).logs =
      Paging.page OperationalLog.key afterId (max 1 (min limit 64)) store.operationalLogs := by
  simp only [logsPage, Paging.page, List.take_take]
  congr 1
  omega

theorem logsPage_next (store : StateStore) (afterId : Int) (limit : Nat) :
    (store.logsPage afterId limit).nextAfterId =
      Paging.next OperationalLog.key afterId (store.logsPage afterId limit).logs := rfl

/-- A page is full when there are more entries. -/
theorem logsPage_full {afterId : Int} {limit : Nat}
    (more : (store.logsPage afterId limit).hasMore = true) :
    (store.logsPage afterId limit).logs ≠ [] := by
  simp only [logsPage, decide_eq_true_eq] at more ⊢
  intro empty
  have size := congrArg List.length empty
  rw [List.length_take, List.length_nil] at size
  omega

/-- The table after an entry was added. -/
theorem appendLog_ok (added : store.appendLog createdNs event maxLogs = .ok next) :
    next.operationalLogs = Paging.retain maxLogs
        (store.operationalLogs ++ [⟨store.logSequence + 1, createdNs, event⟩]) ∧
      next.logSequence = store.logSequence + 1 := by
  obtain ⟨⟨⟩, -, added⟩ := Except.bind_ok added
  split at added
  · cases added
  split at added
  · cases added
  · cases added
    exact ⟨rfl, rfl⟩

theorem Numbered.appendLog (numbered : store.Numbered)
    (added : store.appendLog createdNs event maxLogs = .ok next) : next.Numbered := by
  obtain ⟨table, sequence⟩ := appendLog_ok added
  have ends := Paging.retain_suffix maxLogs
    (store.operationalLogs ++ [⟨store.logSequence + 1, createdNs, event⟩])
  rw [← table] at ends
  constructor
  · refine (numbered.ascending.concat fun other member => ?_).suffix ends
    have below := numbered.used other member
    show (other.id : Int) < (store.logSequence + 1 : Nat)
    omega
  · intro log member
    rw [sequence]
    rcases List.mem_append.mp (ends.subset member) with before | own
    · have below := numbered.used log before
      omega
    · rw [List.mem_singleton.mp own]

end StateStore

namespace LogReader

/-- What a reader was given, of a log that is read from `start` on. -/
structure Follows (start : Int) (reader : LogReader) : Prop where
  numbered : reader.store.Numbered
  followed : Paging.Followed OperationalLog.key start reader.cursor reader.seen
  cursor_le : reader.cursor ≤ max start reader.store.logSequence
  passed : ∀ log ∈ reader.store.operationalLogs, start < log.key → log.key ≤ reader.cursor →
    log ∈ reader.seen
  newest : reader.store.operationalLogs <:+ reader.history

variable {start : Int} {reader : LogReader} {createdNs : I64} {event : OperationalEvent}
  {maxLogs limit : Nat}

theorem Follows.append {next : StateStore} (follows : reader.Follows start)
    (added : reader.store.appendLog createdNs event maxLogs = .ok next) :
    Follows start { reader with
      store := next, history := reader.history ++ [reader.entry createdNs event] } := by
  obtain ⟨table, sequence⟩ := StateStore.appendLog_ok added
  have ends := Paging.retain_suffix maxLogs
    (reader.store.operationalLogs ++ [reader.entry createdNs event])
  have same : next.operationalLogs = Paging.retain maxLogs
      (reader.store.operationalLogs ++ [reader.entry createdNs event]) := table
  rw [← same] at ends
  have last := follows.cursor_le
  refine ⟨follows.numbered.appendLog added, follows.followed, ?_, ?_, ?_⟩
  · show reader.cursor ≤ max start (next.logSequence : Int)
    rw [sequence]
    omega
  · intro log member above below
    rcases List.mem_append.mp (ends.subset member) with before | own
    · exact follows.passed log before above below
    · -- The new id is greater than all ids that a page has gone on from.
      have newest : log.key = (reader.store.logSequence + 1 : Nat) := by
        rw [List.mem_singleton.mp own]
        rfl
      dsimp only at below
      omega
  · obtain ⟨lost, whole⟩ := follows.newest
    refine ends.trans ⟨lost, ?_⟩
    rw [← List.append_assoc, whole]

theorem Follows.read (follows : reader.Follows start) (limit : Nat) :
    (reader.perform (.read limit)).Follows start := by
  have page := StateStore.logsPage_logs reader.store reader.cursor limit
  have step := follows.followed.page follows.numbered.ascending (max 1 (min limit 64))
  rw [← page] at step
  refine ⟨follows.numbered, step, ?_, ?_, follows.newest⟩
  · show Paging.next OperationalLog.key reader.cursor
      (reader.store.logsPage reader.cursor limit).logs ≤ max start reader.store.logSequence
    rcases Paging.next_eq OperationalLog.key reader.cursor
      (reader.store.logsPage reader.cursor limit).logs with same | ⟨log, listed, same⟩
    · rw [same]
      exact follows.cursor_le
    · rw [page] at listed
      have below := follows.numbered.used log ((Paging.page_sublist _ _ _ _).subset listed)
      rw [same, OperationalLog.key]
      omega
  · intro log member above below
    by_cases before : log.key ≤ reader.cursor
    · exact List.mem_append_left _ (follows.passed log member above before)
    · apply List.mem_append_right
      rw [page]
      apply follows.numbered.ascending.mem_page member (not_le.mp before)
      rw [← page]
      exact below

theorem Follows.perform (follows : reader.Follows start) (action : LogAction) :
    (reader.perform action).Follows start := by
  cases action with
  | append createdNs event maxLogs =>
      unfold LogReader.perform
      dsimp only
      split
      · exact follows
      · rename_i added
        exact follows.append added
  | read limit => exact follows.read limit

theorem Follows.follow (follows : reader.Follows start) (actions : List LogAction) :
    (reader.follow actions).Follows start := by
  induction actions generalizing reader with
  | nil => exact follows
  | cons action rest ih => exact ih (follows.perform action)

theorem follow_append (reader : LogReader) (front back : List LogAction) :
    reader.follow (front ++ back) = (reader.follow front).follow back :=
  List.foldl_append

/-- What was given stays given. -/
theorem seen_perform (reader : LogReader) (action : LogAction) :
    reader.seen <+: (reader.perform action).seen := by
  cases action with
  | append createdNs event maxLogs =>
      unfold LogReader.perform
      dsimp only
      split
      · exact List.prefix_refl _
      · exact List.prefix_refl _
  | read limit => exact List.prefix_append _ _

theorem seen_follow (reader : LogReader) (actions : List LogAction) :
    reader.seen <+: (reader.follow actions).seen := by
  induction actions generalizing reader with
  | nil => exact List.prefix_refl _
  | cons action rest ih => exact (seen_perform reader action).trans (ih _)

end LogReader

/-- A reader of the log is given entries in the strict order of their ids, none of them twice, and
every retained entry that it passes; a page with more behind it advances the reader; after an
entry was added the log holds the newest entries of its history. -/
theorem log_followed {reader : LogReader} (numbered : reader.store.Numbered)
    (unread : reader.seen = []) (started : reader.history = reader.store.operationalLogs)
    (actions : List LogAction) :
    ((reader.follow actions).seen.Pairwise fun earlier later => earlier.id < later.id) ∧
    (∀ log ∈ (reader.follow actions).store.operationalLogs, reader.cursor < log.id →
      log.id ≤ (reader.follow actions).cursor → log ∈ (reader.follow actions).seen) ∧
    (∀ front limit back, actions = front ++ .read limit :: back →
      let page := (reader.follow front).store.logsPage (reader.follow front).cursor limit
      (∀ log ∈ page.logs, log ∈ (reader.follow actions).seen) ∧
      (∀ log ∈ (reader.follow front).store.operationalLogs, (reader.follow front).cursor < log.id →
        log.id ≤ page.nextAfterId → log ∈ page.logs) ∧
      (page.hasMore = true → page.logs ≠ [] ∧ (reader.follow front).cursor < page.nextAfterId)) ∧
    ∀ front createdNs event maxLogs back next,
      actions = front ++ .append createdNs event maxLogs :: back →
      (reader.follow front).store.appendLog createdNs event maxLogs = .ok next →
      (reader.follow (front ++ [.append createdNs event maxLogs])).store = next ∧
      next.operationalLogs <:+
        (reader.follow front).history ++ [(reader.follow front).entry createdNs event] ∧
      next.operationalLogs.length =
        min maxLogs ((reader.follow front).store.operationalLogs.length + 1) := by
  have initial : reader.Follows reader.cursor := by
    refine ⟨numbered, ?_, le_max_left _ _, fun log _ above below => ?_, ?_⟩
    · rw [unread]
      exact Paging.Followed.nothing _ _
    · exact absurd above (not_lt.mpr below)
    · exact started ▸ List.suffix_refl _
  have final := initial.follow actions
  refine ⟨?_, final.passed, ?_, ?_⟩
  · exact final.followed.ascending.imp fun less => Int.ofNat_lt.mp less
  · rintro front limit back rfl
    have before := initial.follow front
    have page := StateStore.logsPage_logs (reader.follow front).store (reader.follow front).cursor
      limit
    refine ⟨fun log listed => ?_, fun log member above below => ?_, fun more => ?_⟩
    · rw [LogReader.follow_append]
      apply (LogReader.seen_follow ((reader.follow front).perform (.read limit)) back).subset
      exact List.mem_append_right _ listed
    · rw [page]
      apply before.numbered.ascending.mem_page member above
      rw [← page]
      exact below
    · have full := StateStore.logsPage_full more
      have later : ∀ log ∈ ((reader.follow front).store.logsPage (reader.follow front).cursor
          limit).logs, (reader.follow front).cursor < log.key := by
        intro log listed
        rw [page] at listed
        exact Paging.after_page listed
      exact ⟨full, Paging.lt_next later full⟩
  · rintro front createdNs event maxLogs back next - added
    have before := initial.follow front
    have performed : reader.follow (front ++ [.append createdNs event maxLogs]) =
        { reader.follow front with
          store := next
          history := (reader.follow front).history ++
            [(reader.follow front).entry createdNs event] } := by
      rw [LogReader.follow_append]
      show (reader.follow front).perform (.append createdNs event maxLogs) = _
      unfold LogReader.perform
      dsimp only
      rw [added]
    have after := before.append added
    refine ⟨by rw [performed], after.newest, ?_⟩
    rw [(StateStore.appendLog_ok added).1, Paging.length_retain, List.length_append,
      List.length_singleton]

/-- A reader is given the second and the fifth of five entries; the others were trimmed before it
asked for them. -/
theorem trimmed_log_followed :
    (LogReader.follow ⟨.empty, [], 0, []⟩ [.append 0 .daemonStarted 2, .append 1 .daemonStarted 2,
        .append 2 .daemonStopped 2, .read 1, .append 3 .daemonStarted 0, .read 1,
        .append 4 .daemonStarted 2, .read 0]).seen.map OperationalLog.id = [2, 5] ∧
    (LogReader.follow ⟨.empty, [], 0, []⟩ [.append 0 .daemonStarted 2, .append 1 .daemonStarted 2,
        .append 2 .daemonStopped 2, .read 1, .append 3 .daemonStarted 0, .read 1,
        .append 4 .daemonStarted 2, .read 0]).seen.Pairwise
      fun earlier later => earlier.id < later.id := by
  have numbered : StateStore.empty.Numbered :=
    ⟨List.Pairwise.nil, fun log member => absurd member List.not_mem_nil⟩
  refine ⟨by decide +kernel, ?_⟩
  exact (@log_followed ⟨.empty, [], 0, []⟩ numbered rfl rfl _).1

end Skillsync
