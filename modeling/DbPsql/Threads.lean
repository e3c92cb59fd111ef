import DbPsql.Create

/-! Threads sharing one `dbconn_t`.  Each thread runs `db_query(db, &res, ...)` and then
`db_query_finish(db, &res)` whatever the reply, the pattern of `db_create` and `db_setupA`.
`db_query` takes `db->mutex` and, on success, returns holding it; `db_query_finish` releases it.
A step is a thread's `mutex_lock`, the rest of its `db_query` taken as one step, or its
`db_query_finish`.  The mutex records its owner, and the state records whether some thread
released it without holding it and which threads have a query in flight, between their
`PQexecParams` and their `db_query_finish`.

While no `db_query` has released the mutex itself, the lock does its work: a thread between its
`mutex_lock` and its `db_query_finish` is the only one that can take a step
(`reachable_locked_alone`), so taking the rest of `db_query` as one step leaves out no schedule of
the code; no thread releases the mutex without holding it and at most one query is in flight
(`reachable_exclusive`).  In that part of a run no reply is released twice and only replies to
statements sent are (`reachable_releases_once`), every reply but a retried one is released or held
by the owner of the mutex (`reachable_replies_accounted`), and the owner can always take its next
step (`reachable_no_deadlock`).  The lock stays intact in every run when every template is well
formed and the server accepts every connection (`reachable_exclusive_of_wellFormed`).  But the
compile error and no-connection paths of `db_query` release it, and `db_query_finish` releases it
again: with three threads, the second release frees another thread's lock and two queries are in
flight on one connection (`threads_overlap_queries`).  From there the code can run two bodies of
`db_query` at once on `db->q` and `db->conn`; the model keeps only the schedules in which they run
one after the other, so a state it reaches is one the code reaches, and the results over every
state assume the lock intact. -/

namespace DbPsql

/-- Where a thread is. -/
inductive Pc
  /-- before `db_query` -/
  | start
  /-- in `db_query`, past its `mutex_lock` -/
  | locked
  /-- back from `db_query`, with `res.res` as it returned -/
  | returned (res : Option Nat)
  /-- past `db_query_finish` -/
  | finished
  deriving DecidableEq

/-- A thread holds the mutex, by the code's protocol, from its `mutex_lock` to its
`db_query_finish`. -/
def Pc.inLock : Pc → Bool
  | .locked | .returned _ => true
  | _ => false

/-- The threads and the connection: the owner of `db->mutex`, each thread's place and query in
flight, and whether the mutex was released by a non-owner or by `db_query` itself. -/
structure Sys where
  world : World
  owner : Option Nat
  pc : Nat → Pc
  flight : Nat → Bool
  badUnlock : Bool
  early : Bool

/-- What the threads run: the buffer's size, the host, the collaborator, the connection's fuel,
and each thread's template and arguments. -/
structure Job where
  qSize : Nat
  e : Endian
  c : Collab
  fuel : Nat
  task : Nat → CStr × List Arg

namespace Sys

/-- Every thread before its `db_query`, the mutex free. -/
def init (w : World) : Sys := ⟨w, none, fun _ => .start, fun _ => false, false, false⟩

/-- `mutex_lock` by thread `t`, which may go on only when the mutex is free. -/
def lock (s : Sys) (t : Nat) : Sys := { s with owner := some t, pc := Function.update s.pc t .locked }

/-- The rest of `db_query` by thread `t` as one step, exact while the thread holds the mutex alone
(`reachable_locked_alone`); the mutex is released when `db_query` released it. -/
def query (s : Sys) (t : Nat) (out : Out) : Sys :=
  { s with
    world := out.world
    owner := if out.unlocked then none else s.owner
    pc := Function.update s.pc t (.returned out.res)
    flight := Function.update s.flight t (decide (s.world.sent.length < out.world.sent.length))
    badUnlock := s.badUnlock || (out.unlocked && s.owner != some t)
    early := s.early || out.unlocked }

/-- `db_query_finish` by thread `t`: the reply released, then `mutex_unlock`. -/
def finish (s : Sys) (t : Nat) (qSize : Nat) (res : Option Nat) : Sys :=
  { s with
    world := dbQueryFinish qSize res s.world
    owner := none
    pc := Function.update s.pc t .finished
    flight := Function.update s.flight t false
    badUnlock := s.badUnlock || s.owner != some t }

end Sys

/-- The next step of thread `t`: `none` when it waits for the mutex, when `db_query` aborts or
does not return within its fuel, or when the thread is done. -/
def next (j : Job) (s : Sys) (t : Nat) : Option Sys :=
  match s.pc t with
  | .start => if s.owner = none then some (s.lock t) else none
  | .locked =>
    (dbQuery j.qSize j.e j.c j.fuel (j.task t).1 (j.task t).2 none s.world).map (s.query t)
  | .returned res => some (s.finish t j.qSize res)
  | .finished => none

/-- The states the threads reach from `Sys.init w`, in any interleaving of their steps. -/
inductive Reachable (j : Job) (w : World) : Sys → Prop
  | init : Reachable j w (Sys.init w)
  | step {s s' : Sys} (t : Nat) : Reachable j w s → next j s t = some s' → Reachable j w s'

/-- What a step can be: a `mutex_lock` on a free mutex, the rest of a `db_query` that returned, or
a `db_query_finish`. -/
theorem next_cases {j : Job} {s s' : Sys} {t : Nat} (h : next j s t = some s') :
    (s.pc t = .start ∧ s.owner = none ∧ s' = s.lock t) ∨
      (s.pc t = .locked ∧ ∃ out, dbQuery j.qSize j.e j.c j.fuel (j.task t).1 (j.task t).2 none
        s.world = some out ∧ s' = s.query t out) ∨
      ∃ res, s.pc t = .returned res ∧ s' = s.finish t j.qSize res := by
  unfold next at h
  split at h
  · split at h
    · exact .inl ⟨‹_›, ‹_›, (Option.some.inj h).symm⟩
    · cases h
  · obtain ⟨out, hq, rfl⟩ := Option.map_eq_some'.mp h
    exact .inr (.inl ⟨‹_›, out, hq, rfl⟩)
  · exact .inr (.inr ⟨_, ‹_›, (Option.some.inj h).symm⟩)
  · cases h

theorem next_lock {j : Job} {s : Sys} {t : Nat} (hpc : s.pc t = .start) (hfree : s.owner = none) :
    next j s t = some (s.lock t) := by
  simp [next, hpc, hfree]

theorem next_query {j : Job} {s : Sys} {t : Nat} {out : Out} (hpc : s.pc t = .locked)
    (hq : dbQuery j.qSize j.e j.c j.fuel (j.task t).1 (j.task t).2 none s.world = some out) :
    next j s t = some (s.query t out) := by
  simp [next, hpc, hq]

theorem next_finish {j : Job} {s : Sys} {t : Nat} {res : Option Nat}
    (hpc : s.pc t = .returned res) : next j s t = some (s.finish t j.qSize res) := by
  simp [next, hpc]

/-! ### Two threads that query in turn -/

/-- Every thread runs `SELECT 1` against `acceptAll`. -/
def selectJob : Job := ⟨64, .little, acceptAll, 3, fun _ => (selectOne, [])⟩

/-- `SELECT 1` on an open connection to `acceptAll`: sent once, `DB_R_OK`, the mutex kept. -/
theorem dbQuery_selectOne (qSize : Nat) (e : Endian) (fuel : Nat) {w : World}
    (hconn : w.db.conn = true) :
    ∃ out, dbQuery qSize e acceptAll fuel selectOne [] none w = some out ∧
      out.world.sent.length = w.sent.length + 1 ∧ out.world.db.conn = true ∧
      out.unlocked = false ∧ out.res = some w.sent.length := by
  obtain ⟨st, hst, hok, -⟩ := prepare_literal qSize e selectOne [] w.db.q (by decide)
  exact ⟨_, (dbQuery_of_prepare qSize e acceptAll fuel selectOne [] w hst hok).trans
    (execute_accepted (st.stmt e) hconn rfl rfl), by simp, hconn, rfl, rfl⟩

/-- Two threads of `selectJob` in turn on an open connection: thread `0` sends `SELECT 1` and
releases its reply, then thread `1` sends and is back holding its own while thread `2` waits. -/
theorem selectJob_two : ∃ s, Reachable selectJob connectedWorld s ∧ s.early = false ∧
    s.owner = some 1 ∧ s.pc 1 = .returned (some 1) ∧ s.pc 2 = .start ∧ s.flight 1 = true ∧
    s.world.sent.length = 2 ∧ s.world.cleared = [0] := by
  -- thread 0: `mutex_lock`, `db_query` of `SELECT 1`, and `db_query_finish`
  obtain ⟨out₀, hq₀, hsent₀, hconn₀, hun₀, hres₀⟩ :=
    dbQuery_selectOne 64 .little 3 (w := connectedWorld) rfl
  have hcl₀ := (dbQuery_frame hq₀).cleared
  have r₁ : Reachable selectJob connectedWorld _ := .step 0 .init (next_lock rfl rfl)
  have r₂ := Reachable.step 0 r₁ (next_query (by simp [Sys.lock, Sys.init]) hq₀)
  have r₃ := Reachable.step 0 r₂ (next_finish
    (show (((Sys.init connectedWorld).lock 0).query 0 out₀).pc 0 = .returned (some 0) by
      simp [Sys.query, hres₀]; rfl))
  generalize hs₃ : (((Sys.init connectedWorld).lock 0).query 0 out₀).finish 0 selectJob.qSize
    (some 0) = s₃ at r₃
  have hconn₃ : s₃.world.db.conn = true := by
    simp [← hs₃, Sys.finish, Sys.query, dbQueryFinish, hconn₀]
  -- thread 1: `mutex_lock` on the free mutex, and `db_query` of `SELECT 1`
  obtain ⟨out₁, hq₁, hsent₁, -, hun₁, hres₁⟩ := dbQuery_selectOne 64 .little 3 hconn₃
  have hcl₁ := (dbQuery_frame hq₁).cleared
  have r₄ := Reachable.step 1 r₃
    (next_lock (by simp [← hs₃, Sys.finish, Sys.query, Sys.lock, Sys.init]) (by simp [← hs₃, Sys.finish]))
  have r₅ := Reachable.step 1 r₄ (next_query (by simp [Sys.lock]) hq₁)
  -- the fields of the state reached, read off the two runs of `db_query`
  refine ⟨_, r₅, ?_, ?_, ?_, ?_, ?_, ?_, ?_⟩ <;>
    simp [← hs₃, Sys.query, Sys.finish, Sys.lock, Sys.init, hun₀, hun₁, hres₁, hsent₀, hsent₁,
      hcl₁, hcl₀, connectedWorld, testWorld]

/-! ### The lock, while no `db_query` releases it -/

/-- What holds in every reachable state: a bad release needs an early one; before one, the owner is
the one thread in the lock; and a query in flight is back from `db_query`. -/
structure Inv (s : Sys) : Prop where
  bad : s.badUnlock = true → s.early = true
  owner : s.early = false → ∀ t, s.owner = some t ↔ (s.pc t).inLock = true
  flight : ∀ t, s.flight t = true → ∃ res, s.pc t = .returned res

theorem Inv.init (w : World) : Inv (Sys.init w) :=
  ⟨fun h => h, fun _ t => by simp [Sys.init, Pc.inLock], fun t h => by simp [Sys.init] at h⟩

theorem Inv.free {s : Sys} (h : Inv s) (he : s.early = false) (hfree : s.owner = none) (t : Nat) :
    (s.pc t).inLock = false := by
  simpa [hfree] using (h.owner he t).not

theorem Inv.lock {s : Sys} (h : Inv s) {t : Nat} (hpc : s.pc t = .start) (hfree : s.owner = none) :
    Inv (s.lock t) := by
  refine ⟨h.bad, fun he u => ?_, fun u hu => ?_⟩
  · by_cases hu : u = t
    · subst hu; simp [Sys.lock, Pc.inLock]
    · have := h.free he hfree u
      simp [Sys.lock, Function.update_noteq hu, Ne.symm hu, this]
  · have hne : u ≠ t := by
      rintro rfl
      obtain ⟨_, h'⟩ := h.flight u hu
      simp [hpc] at h'
    simpa [Sys.lock, Function.update_noteq hne] using h.flight u hu

theorem Inv.query {s : Sys} (h : Inv s) {t : Nat} (hpc : s.pc t = .locked) (out : Out) :
    Inv (s.query t out) := by
  refine ⟨fun hb => ?_, fun he u => ?_, fun u hu => ?_⟩
  · simp only [Sys.query, Bool.or_eq_true, Bool.and_eq_true] at hb ⊢
    exact hb.elim (fun hb => Or.inl (h.bad hb)) (fun hb => Or.inr hb.1)
  · simp only [Sys.query, Bool.or_eq_false_iff] at he
    have hown := h.owner he.1
    by_cases hu : u = t
    · subst hu
      simp [Sys.query, he.2, Pc.inLock, (hown u).mpr (by simp [hpc, Pc.inLock])]
    · simp [Sys.query, he.2, Function.update_noteq hu, hown u]
  · by_cases hut : u = t
    · subst hut; exact ⟨out.res, by simp [Sys.query]⟩
    · have hu' : s.flight u = true := by simpa [Sys.query, Function.update_noteq hut] using hu
      simpa [Sys.query, Function.update_noteq hut] using h.flight u hu'

theorem Inv.finish {s : Sys} (h : Inv s) {t : Nat} {res : Option Nat}
    (hpc : s.pc t = .returned res) (qSize : Nat) : Inv (s.finish t qSize res) := by
  have hown : s.early = false → s.owner = some t := fun he =>
    (h.owner he t).mpr (by simp [hpc, Pc.inLock])
  refine ⟨fun hb => ?_, fun he u => ?_, fun u hu => ?_⟩
  · simp only [Sys.finish, Bool.or_eq_true, bne_iff_ne, ne_eq] at hb ⊢
    rcases hb with hb | hb
    · exact h.bad hb
    · by_contra he
      exact hb (hown (by simpa using he))
  · have ho := hown he
    by_cases hu : u = t
    · subst hu; simp [Sys.finish, Pc.inLock]
    · have : (s.pc u).inLock = false := by
        have := (h.owner he u).not
        simp only [ho, Option.some.injEq, Bool.not_eq_true] at this
        exact this.mp (Ne.symm hu)
      simp [Sys.finish, Function.update_noteq hu, this]
  · have hne : u ≠ t := by rintro rfl; simp [Sys.finish] at hu
    simpa [Sys.finish, Function.update_noteq hne] using
      h.flight u (by simpa [Sys.finish, Function.update_noteq hne] using hu)

/-- Every step keeps the invariant. -/
theorem Inv.step {j : Job} {s s' : Sys} {t : Nat} (h : Inv s) (hs : next j s t = some s') :
    Inv s' := by
  obtain ⟨hpc, hfree, rfl⟩ | ⟨hpc, out, -, rfl⟩ | ⟨res, hpc, rfl⟩ := next_cases hs
  · exact h.lock hpc hfree
  · exact h.query hpc out
  · exact h.finish hpc j.qSize

theorem Reachable.inv {j : Job} {w : World} {s : Sys} (h : Reachable j w s) : Inv s := by
  induction h with
  | init => exact Inv.init w
  | step t _ hs ih => exact ih.step hs

theorem Inv.owner_of_returned {s : Sys} (hi : Inv s) (he : s.early = false) {t : Nat}
    {r : Option Nat} (ht : s.pc t = .returned r) : s.owner = some t :=
  (hi.owner he t).mpr (by simp [ht, Pc.inLock])

/-- While there was no early release, no bad release and at most one query in flight. -/
theorem Inv.exclusive {s : Sys} (hi : Inv s) (he : s.early = false) :
    s.badUnlock = false ∧ ∀ t u, s.flight t = true → s.flight u = true → t = u := by
  refine ⟨by by_contra hb; simp [hi.bad (by simpa using hb)] at he, fun t u ht hu => ?_⟩
  obtain ⟨_, hpt⟩ := hi.flight t ht
  obtain ⟨_, hpu⟩ := hi.flight u hu
  have h1 := (hi.owner he t).mpr (by simp [hpt, Pc.inLock])
  have h2 := (hi.owner he u).mpr (by simp [hpu, Pc.inLock])
  exact Option.some.inj (h1.symm.trans h2)

/-- In every interleaving of any number of threads, as long as no `db_query` has released the
mutex itself, no thread releases it without holding it and at most one thread has a query in
flight. -/
theorem reachable_exclusive {j : Job} {w : World} {s : Sys} (h : Reachable j w s)
    (he : s.early = false) :
    s.badUnlock = false ∧ ∀ t u, s.flight t = true → s.flight u = true → t = u :=
  h.inv.exclusive he

theorem reachable_exclusive_two :
    ∃ s, Reachable selectJob connectedWorld s ∧ s.early = false ∧ s.flight 1 = true ∧
      s.badUnlock = false ∧ ∀ t u, s.flight t = true → s.flight u = true → t = u := by
  obtain ⟨s, r, he, -, -, -, hfl, -⟩ := selectJob_two
  exact ⟨s, r, he, hfl, reachable_exclusive r he⟩

/-- A thread between `mutex_lock` and `db_query_finish` owns the mutex, while there was no early
release, and every other thread waits on its `mutex_lock` or is done. -/
theorem Inv.alone {j : Job} {s : Sys} (hi : Inv s) (he : s.early = false) {t : Nat}
    (ht : (s.pc t).inLock = true) {u : Nat} (hu : u ≠ t) : next j s u = none := by
  have hown : s.owner = some t := (hi.owner he t).mpr ht
  have hin : (s.pc u).inLock = false := by
    rw [← Bool.not_eq_true, ← hi.owner he u, hown]
    exact fun h => hu (Option.some.inj h).symm
  cases hpc : s.pc u with
  | start => simp [next, hpc, hown]
  | finished => simp [next, hpc]
  | locked | returned _ => simp [hpc, Pc.inLock] at hin

/-- In every interleaving of any number of threads, as long as no `db_query` has released the
mutex itself, a thread between its `mutex_lock` and its `db_query_finish` is the only one that can
take a step: no schedule of the code runs another thread inside its `db_query`. -/
theorem reachable_locked_alone {j : Job} {w : World} {s : Sys} (h : Reachable j w s)
    (he : s.early = false) {t : Nat} (ht : (s.pc t).inLock = true) {u : Nat} (hu : u ≠ t) :
    next j s u = none :=
  h.inv.alone he ht hu

theorem reachable_locked_alone_two :
    ∃ s, Reachable selectJob connectedWorld s ∧ s.early = false ∧ (s.pc 1).inLock = true ∧
      s.pc 2 = .start ∧ next selectJob s 2 = none := by
  obtain ⟨s, r, he, -, h1, h2, -⟩ := selectJob_two
  have hin : (s.pc 1).inLock = true := by simp [h1, Pc.inLock]
  exact ⟨s, r, he, hin, h2, reachable_locked_alone r he hin (by decide)⟩

/-- Every thread's template is well formed: the precondition of the compile phase's correctness. -/
def Job.WellFormed (j : Job) : Prop :=
  ∀ t, ∃ segs, instantiate (j.task t).1.chars (j.task t).2 = some segs ∧
    countDirectives segs ≤ dbMaxParams ∧ (render segs 0).length < j.qSize

/-- With a connection string, a server that accepts every connection and well-formed templates, no
`db_query` releases the mutex itself, and the connection string stays. -/
theorem Reachable.no_early {j : Job} {w : World} (hc : ∀ k, j.c.connects k = true)
    (hinfo : w.db.conninfo.isSome) (hwf : j.WellFormed) {s : Sys} (h : Reachable j w s) :
    s.early = false ∧ s.world.db.conninfo = w.db.conninfo := by
  induction h with
  | init => exact ⟨rfl, rfl⟩
  | step t _ hs ih =>
    obtain ⟨-, -, rfl⟩ | ⟨-, out, hq, rfl⟩ | ⟨res, -, rfl⟩ := next_cases hs
    · exact ih
    · have hlock := dbQuery_keeps_lock hc (hwf t) (ih.2 ▸ hinfo) hq
      exact ⟨by simp [Sys.query, ih.1, hlock], (dbQuery_frame hq).conninfo.trans ih.2⟩
    · refine ⟨ih.1, ?_⟩
      cases res <;> exact ih.2

/-- Threads whose templates are all well formed, on a connection with a connection string to a
server that accepts every connection, in every interleaving: no thread releases the mutex without
holding it and at most one thread has a query in flight, whatever the server replies. -/
theorem reachable_exclusive_of_wellFormed {j : Job} {w : World} (hc : ∀ k, j.c.connects k = true)
    (hinfo : w.db.conninfo.isSome) (hwf : j.WellFormed) {s : Sys} (h : Reachable j w s) :
    s.badUnlock = false ∧ ∀ t u, s.flight t = true → s.flight u = true → t = u :=
  h.inv.exclusive (h.no_early hc hinfo hwf).1

theorem reachable_exclusive_of_wellFormed_select :
    (∀ k, selectJob.c.connects k = true) ∧ connectedWorld.db.conninfo.isSome ∧ selectJob.WellFormed ∧
      ∃ s, Reachable selectJob connectedWorld s ∧ s.flight 1 = true ∧
        s.badUnlock = false ∧ ∀ t u, s.flight t = true → s.flight u = true → t = u := by
  have hwf : selectJob.WellFormed := fun _ =>
    ⟨(instantiate selectOne.chars []).getD [],
      (by decide : instantiate selectOne.chars [] = some ((instantiate selectOne.chars []).getD [])),
      by decide, by decide⟩
  obtain ⟨s, r, -, -, -, -, hfl, -⟩ := selectJob_two
  exact ⟨fun _ => rfl, rfl, hwf, s, r, hfl,
    reachable_exclusive_of_wellFormed (w := connectedWorld) (fun _ => rfl) rfl hwf r⟩

/-! ### A release by a thread that does not hold the mutex -/

/-- `"%x"`, a template that does not compile. -/
def percentX : CStr := ⟨['%', 'x'], by decide⟩

/-- Thread `0` runs `"%x"`, every other thread `SELECT 1`, against a server that accepts
everything. -/
def overlapJob (qSize : Nat) (e : Endian) (fuel : Nat) : Job :=
  ⟨qSize, e, acceptAll, fuel, fun t => if t = 0 then (percentX, []) else (selectOne, [])⟩

/-- Three threads on an open connection: thread `0`'s `db_query` fails to compile and releases
the mutex; thread `1` takes it and sends its query; thread `0`'s `db_query_finish` releases the
mutex thread `1` holds; thread `2` takes it and sends its query while thread `1`'s is still in
flight. -/
theorem threads_overlap_queries (qSize : Nat) (e : Endian) (fuel : Nat) :
    ∃ s, Reachable (overlapJob qSize e fuel) connectedWorld s ∧ s.badUnlock = true ∧
      s.flight 1 = true ∧ s.flight 2 = true := by
  -- thread 0: `mutex_lock`, and `db_query` fails to compile `"%x"` and releases the mutex
  obtain ⟨st₀, hst₀, herr⟩ := prepare_rejects qSize e percentX [] connectedWorld.db.q
    (show percentX.chars = [] ++ '%' :: 'x' :: [] from rfl) (by simp) (by decide)
  obtain ⟨out₀, hq₀, hun₀, hres₀, hconn₀⟩ : ∃ out, dbQuery qSize e acceptAll fuel percentX [] none
      connectedWorld = some out ∧ out.unlocked = true ∧ out.res = none ∧ out.world.db.conn = true :=
    ⟨_, dbQuery_rejects qSize e acceptAll fuel percentX [] connectedWorld hst₀ (by simp [herr]),
      rfl, rfl, rfl⟩
  have r₀ : Reachable (overlapJob qSize e fuel) connectedWorld (Sys.init connectedWorld) := .init
  have r₁ := Reachable.step 0 r₀ (next_lock rfl rfl)
  have r₂ := Reachable.step 0 r₁ (next_query (by simp [Sys.lock, Sys.init]) hq₀)
  generalize hs₂ : ((Sys.init connectedWorld).lock 0).query 0 out₀ = s₂ at r₂
  have hconn₂ : s₂.world.db.conn = true := by rw [← hs₂]; exact hconn₀
  have hpc₂ : ∀ t, t ≠ 0 → s₂.pc t = .start := fun t ht => by
    simp [← hs₂, Sys.query, Sys.lock, Sys.init, Function.update_noteq ht]
  -- thread 1: `mutex_lock` on the released mutex, and `db_query` sends `SELECT 1`
  obtain ⟨out₁, hq₁, hsent₁, hconn₁, hun₁, -⟩ := dbQuery_selectOne qSize e fuel hconn₂
  have r₃ := Reachable.step 1 r₂ (next_lock (hpc₂ 1 (by decide)) (by simp [← hs₂, Sys.query, hun₀]))
  have r₄ := Reachable.step 1 r₃ (next_query (by simp [Sys.lock]) hq₁)
  -- thread 0: `db_query_finish` releases the mutex thread 1 holds
  have r₅ := Reachable.step 0 r₄ (next_finish
    (show ((s₂.lock 1).query 1 out₁).pc 0 = .returned none by simp [Sys.query, Sys.lock, ← hs₂, hres₀]))
  generalize hs₅ : ((s₂.lock 1).query 1 out₁).finish 0 (overlapJob qSize e fuel).qSize none = s₅
    at r₅
  have hbad : s₅.badUnlock = true := by simp [← hs₅, Sys.finish, Sys.query, Sys.lock, hun₁]
  have hfl₁ : s₅.flight 1 = true := by simp [← hs₅, Sys.finish, Sys.query, Sys.lock, hsent₁]
  have hconn₅ : s₅.world.db.conn = true := by
    simp [← hs₅, Sys.finish, Sys.query, dbQueryFinish, hconn₁]
  -- thread 2: `mutex_lock` on the released mutex, and `db_query` sends while thread 1's is in flight
  obtain ⟨out₂, hq₂, hsent₂, -⟩ := dbQuery_selectOne qSize e fuel hconn₅
  have r₆ := Reachable.step 2 r₅ (next_lock (by simp [← hs₅, Sys.finish, Sys.query, Sys.lock,
    hpc₂ 2 (by decide)]) (by simp [← hs₅, Sys.finish]))
  have r₇ := Reachable.step 2 r₆ (next_query (by simp [Sys.lock]) hq₂)
  exact ⟨_, r₇, by simp [Sys.query, Sys.lock, hbad], by simp [Sys.query, Sys.lock, hfl₁],
    by simp [Sys.query, Sys.lock, hsent₂]⟩

/-! ### Every reply released once -/

/-- The replies in every reachable state: those released are distinct replies to statements sent, and
one a thread is back with is sent, not released and its alone. -/
structure Releases (c : Collab) (s : Sys) : Prop where
  nodup : s.world.cleared.Nodup
  cleared : ∀ k ∈ s.world.cleared, k < s.world.sent.length ∧ (c.reply k).isSome
  held : ∀ t k, s.pc t = .returned (some k) →
    k ∉ s.world.cleared ∧ k < s.world.sent.length ∧ (c.reply k).isSome
  unique : ∀ t u k, s.pc t = .returned (some k) → s.pc u = .returned (some k) → t = u

/-- Where a step moved thread `t` to `v`, thread `u` is back from `db_query` when it is `t` and `v`
says so, or when it was back before. -/
theorem update_returned {pc : Nat → Pc} {t u : Nat} {v : Pc} {r : Option Nat}
    (h : Function.update pc t v u = .returned r) : u = t ∧ v = .returned r ∨ u ≠ t ∧ pc u = .returned r := by
  by_cases hu : u = t
  · subst hu; exact .inl ⟨rfl, by simpa using h⟩
  · exact .inr ⟨hu, by simpa [Function.update_noteq hu] using h⟩

namespace Releases

variable {c : Collab} {s : Sys} {t : Nat}

theorem init {w : World} (hw : w.cleared = []) : Releases c (Sys.init w) :=
  ⟨by simp [Sys.init, hw], by simp [Sys.init, hw], fun _ _ h => (nomatch h), fun _ _ _ h => nomatch h⟩

theorem lock (h : Releases c s) (t : Nat) : Releases c (s.lock t) := by
  have hpc : ∀ {u r}, (s.lock t).pc u = .returned r → s.pc u = .returned r := fun hu => by
    rcases update_returned hu with ⟨-, h'⟩ | ⟨-, h'⟩
    · cases h'
    · exact h'
  exact ⟨h.nodup, h.cleared, fun u k hu => h.held u k (hpc hu),
    fun u v k hu hv => h.unique u v k (hpc hu) (hpc hv)⟩

/-- The rest of a `db_query`: the reply it returns with is fresh, past every reply released or
held, since every one of those was sent before. -/
theorem query {qSize : Nat} {e : Endian} {fuel : Nat} {txt : CStr} {args : List Arg} {out : Out}
    (h : Releases c s) (hq : dbQuery qSize e c fuel txt args none s.world = some out) :
    Releases c (s.query t out) := by
  obtain ⟨hle, hcl, hres, -⟩ := dbQuery_holds hq
  have hfresh : ∀ u k, s.pc u = .returned (some k) → ¬s.world.sent.length ≤ k :=
    fun u k hu => Nat.not_le.mpr (h.held u k hu).2.1
  have hnew : ∀ {r k}, Pc.returned out.res = .returned r → r = some k →
      s.world.sent.length ≤ k ∧ k < out.world.sent.length ∧ (c.reply k).isSome :=
    fun hr hk => hres _ ((Pc.returned.inj hr).trans hk)
  refine ⟨?_, fun k hk => ?_, fun u k hu => ?_, fun u v k hu hv => ?_⟩
  · simpa only [Sys.query, hcl] using h.nodup
  · simp only [Sys.query, hcl] at hk ⊢
    exact ⟨(h.cleared k hk).1.trans_le hle, (h.cleared k hk).2⟩
  · simp only [Sys.query, hcl]
    rcases update_returned hu with ⟨-, hk⟩ | ⟨-, hu⟩
    · obtain ⟨h₁, h₂, h₃⟩ := hnew hk rfl
      exact ⟨fun hm => Nat.not_le.mpr (h.cleared k hm).1 h₁, h₂, h₃⟩
    · obtain ⟨h₁, h₂, h₃⟩ := h.held u k hu
      exact ⟨h₁, h₂.trans_le hle, h₃⟩
  · rcases update_returned hu with ⟨hut, hk⟩ | ⟨-, hu⟩ <;>
      rcases update_returned hv with ⟨hvt, hk'⟩ | ⟨-, hv⟩
    · exact hut.trans hvt.symm
    · exact absurd (hnew hk rfl).1 (hfresh v k hv)
    · exact absurd (hnew hk' rfl).1 (hfresh u k hu)
    · exact h.unique u v k hu hv

/-- A `db_query_finish`: the reply it releases is held by its thread alone, so it was not released
before, and no other thread is back with it. -/
theorem finish {res : Option Nat} (h : Releases c s) (hpc : s.pc t = .returned res) (qSize : Nat) :
    Releases c (s.finish t qSize res) := by
  have hpc' : ∀ {u r}, (s.finish t qSize res).pc u = .returned r → u ≠ t ∧ s.pc u = .returned r :=
    fun hu => by
      rcases update_returned hu with ⟨-, h'⟩ | h'
      · cases h'
      · exact h'
  have hother : ∀ u k, u ≠ t → s.pc u = .returned (some k) → k ∉ res.toList := by
    intro u k hut hu hk
    rw [Option.mem_toList, Option.mem_def] at hk
    exact hut (h.unique u t k hu (hk ▸ hpc))
  refine ⟨?_, fun k hk => ?_, fun u k hu => ?_,
    fun u v k hu hv => h.unique u v k (hpc' hu).2 (hpc' hv).2⟩
  · simp only [Sys.finish, dbQueryFinish_cleared]
    cases res with
    | none => exact h.nodup
    | some k => exact List.nodup_cons.mpr ⟨(h.held t k hpc).1, h.nodup⟩
  · simp only [Sys.finish, dbQueryFinish_cleared, dbQueryFinish_sent, List.mem_append] at hk ⊢
    rcases hk with hk | hk
    · obtain rfl : res = some k := Option.mem_toList.mp hk
      exact (h.held t k hpc).2
    · exact h.cleared k hk
  · obtain ⟨hut, hu⟩ := hpc' hu
    obtain ⟨h₁, h₂, h₃⟩ := h.held u k hu
    simp only [Sys.finish, dbQueryFinish_cleared, dbQueryFinish_sent, List.mem_append, not_or]
    exact ⟨⟨hother u k hut hu, h₁⟩, h₂, h₃⟩

theorem step {j : Job} {s' : Sys} (h : Releases j.c s) (hs : next j s t = some s') :
    Releases j.c s' := by
  obtain ⟨-, -, rfl⟩ | ⟨-, out, hq, rfl⟩ | ⟨res, hpc, rfl⟩ := next_cases hs
  · exact h.lock t
  · exact h.query hq
  · exact h.finish hpc j.qSize

end Releases

theorem Reachable.releases {j : Job} {w : World} (hw : w.cleared = []) {s : Sys}
    (h : Reachable j w s) : Releases j.c s := by
  induction h with
  | init => exact Releases.init hw
  | step _ _ hs ih => exact ih.step hs

/-- In every interleaving of any number of threads, while no `db_query` has released the mutex
itself, from a connection with nothing released: `PQclear` is never called twice on one reply, and
only on the reply, not `NULL`, to a statement sent; and at most one thread holds a reply. -/
theorem reachable_releases_once {j : Job} {w : World} (hw : w.cleared = []) {s : Sys}
    (h : Reachable j w s) (he : s.early = false) :
    s.world.cleared.Nodup ∧ (∀ k ∈ s.world.cleared, k < s.world.sent.length ∧ (j.c.reply k).isSome) ∧
      ∀ t u k k', s.pc t = .returned (some k) → s.pc u = .returned (some k') → t = u := by
  refine ⟨(h.releases hw).nodup, (h.releases hw).cleared, fun t u k k' ht hu => ?_⟩
  exact Option.some.inj ((h.inv.owner_of_returned he ht).symm.trans (h.inv.owner_of_returned he hu))

theorem reachable_releases_once_two :
    connectedWorld.cleared = [] ∧ ∃ s, Reachable selectJob connectedWorld s ∧ s.early = false ∧
      s.world.cleared = [0] ∧ s.world.cleared.Nodup ∧
      (∀ k ∈ s.world.cleared, k < s.world.sent.length ∧ (selectJob.c.reply k).isSome) ∧
      ∀ t u k k', s.pc t = .returned (some k) → s.pc u = .returned (some k') → t = u := by
  obtain ⟨s, r, he, -, -, -, -, -, hcl⟩ := selectJob_two
  exact ⟨rfl, s, r, he, hcl, reachable_releases_once rfl r he⟩

/-! ### No reply lost but a retried one -/

/-- Every reply to a statement sent, not `NULL`, has been released, or a thread is back from
`db_query` with it, or it was retryable. -/
def Accounted (c : Collab) (s : Sys) : Prop :=
  ∀ k < s.world.sent.length, (c.reply k).isSome →
    k ∈ s.world.cleared ∨ (∃ t, s.pc t = .returned (some k)) ∨ retryable (c.reply k) = true

namespace Accounted

variable {c : Collab} {s : Sys} {t : Nat}

theorem init {w : World} (hw : w.sent = []) : Accounted c (Sys.init w) :=
  fun k hk => by simp [Sys.init, hw] at hk

/-- A thread back from `db_query` is not the one that steps out of `start` or `locked`. -/
theorem keep {pc : Nat → Pc} {u k : Nat} {v p : Pc} (hpc : pc t = p) (hp : ∀ r, p ≠ .returned r)
    (hu : pc u = .returned (some k)) : Function.update pc t v u = .returned (some k) := by
  have hne : u ≠ t := by rintro rfl; exact hp _ (hpc.symm.trans hu)
  rw [Function.update_noteq hne, hu]

theorem lock (h : Accounted c s) (hpc : s.pc t = .start) : Accounted c (s.lock t) := by
  intro k hk hsome
  rcases h k hk hsome with hc | ⟨u, hu⟩ | hr
  exacts [.inl hc, .inr (.inl ⟨u, keep hpc (fun _ => Pc.noConfusion) hu⟩), .inr (.inr hr)]

/-- The rest of a `db_query`: its own replies are the one it returns with and retryable ones. -/
theorem query {qSize : Nat} {e : Endian} {fuel : Nat} {txt : CStr} {args : List Arg} {out : Out}
    (h : Accounted c s) (hpc : s.pc t = .locked)
    (hq : dbQuery qSize e c fuel txt args none s.world = some out) : Accounted c (s.query t out) := by
  have hh := dbQuery_holds hq
  intro k hk hsome
  by_cases hold : k < s.world.sent.length
  · rcases h k hold hsome with hc | ⟨u, hu⟩ | hr
    · exact .inl (show k ∈ out.world.cleared from hh.cleared ▸ hc)
    · exact .inr (.inl ⟨u, keep hpc (fun _ => Pc.noConfusion) hu⟩)
    · exact .inr (.inr hr)
  · rcases hh.own k (Nat.not_lt.mp hold) hk hsome with hres | hr
    · exact .inr (.inl ⟨t, by simp [Sys.query, hres]⟩)
    · exact .inr (.inr hr)

/-- A `db_query_finish`: the reply its thread was back with is released. -/
theorem finish {res : Option Nat} (h : Accounted c s) (hpc : s.pc t = .returned res) (qSize : Nat) :
    Accounted c (s.finish t qSize res) := by
  intro k hk hsome
  rcases h k (by simpa [Sys.finish] using hk) hsome with hc | ⟨u, hu⟩ | hr
  · exact .inl (by simp [Sys.finish, hc])
  · by_cases hut : u = t
    · subst hut
      obtain rfl : res = some k := Pc.returned.inj (hpc.symm.trans hu)
      exact .inl (by simp [Sys.finish])
    · exact .inr (.inl ⟨u, by simpa [Sys.finish, Function.update_noteq hut] using hu⟩)
  · exact .inr (.inr hr)

theorem step {j : Job} {s' : Sys} (h : Accounted j.c s) (hs : next j s t = some s') :
    Accounted j.c s' := by
  obtain ⟨hpc, -, rfl⟩ | ⟨hpc, out, hq, rfl⟩ | ⟨res, hpc, rfl⟩ := next_cases hs
  · exact h.lock hpc
  · exact h.query hpc hq
  · exact h.finish hpc j.qSize

end Accounted

theorem Reachable.accounted {j : Job} {w : World} (hw : w.sent = []) {s : Sys}
    (h : Reachable j w s) : Accounted j.c s := by
  induction h with
  | init => exact Accounted.init hw
  | step _ _ hs ih => exact ih.step hs

/-- In every interleaving of any number of threads, while no `db_query` has released the mutex
itself, from a connection that has sent nothing: every reply to a statement sent, not `NULL`, has
been released by a `db_query_finish`, is held by the owner of the mutex back from its `db_query`,
or was a retryable reply `db_query` sent its statement again after. -/
theorem reachable_replies_accounted {j : Job} {w : World} (hw : w.sent = []) {s : Sys}
    (h : Reachable j w s) (he : s.early = false) :
    ∀ k < s.world.sent.length, (j.c.reply k).isSome →
      k ∈ s.world.cleared ∨ (∃ t, s.owner = some t ∧ s.pc t = .returned (some k)) ∨
        retryable (j.c.reply k) = true :=
  fun k hk hsome => (h.accounted hw k hk hsome).imp_right
    (Or.imp_left fun ⟨t, ht⟩ => ⟨t, h.inv.owner_of_returned he ht, ht⟩)

theorem reachable_replies_accounted_two :
    connectedWorld.sent = [] ∧ ∃ s, Reachable selectJob connectedWorld s ∧ s.early = false ∧
      s.world.sent.length = 2 ∧ ∀ k < s.world.sent.length, (selectJob.c.reply k).isSome →
        k ∈ s.world.cleared ∨ (∃ t, s.owner = some t ∧ s.pc t = .returned (some k)) ∨
          retryable (selectJob.c.reply k) = true := by
  obtain ⟨s, r, he, -, -, -, -, hn, -⟩ := selectJob_two
  exact ⟨rfl, s, r, he, hn, reachable_replies_accounted rfl r he⟩

/-! ### No deadlock -/

/-- What holds in every reachable state, early releases or not: the owner of the mutex is a thread
between its `mutex_lock` and its `db_query_finish`, and `keeptrying` is as it was set. -/
structure Live (w : World) (s : Sys) : Prop where
  owner : ∀ u, s.owner = some u → (s.pc u).inLock = true
  keeptrying : s.world.db.keeptrying = w.db.keeptrying

theorem Live.step {j : Job} {w : World} {s s' : Sys} {t : Nat} (h : Live w s)
    (hs : next j s t = some s') : Live w s' := by
  obtain ⟨-, -, rfl⟩ | ⟨hpc, out, hq, rfl⟩ | ⟨res, -, rfl⟩ := next_cases hs
  · refine ⟨fun u hu => ?_, h.keeptrying⟩
    obtain rfl : t = u := Option.some.inj hu
    simp [Sys.lock, Pc.inLock]
  · refine ⟨fun u hu => ?_, (dbQuery_frame hq).keeptrying.trans h.keeptrying⟩
    have hown : s.owner = some u := by
      simp only [Sys.query] at hu
      split_ifs at hu
      exact hu
    by_cases hut : u = t
    · subst hut; simp [Sys.query, Pc.inLock]
    · simpa [Sys.query, Function.update_noteq hut] using h.owner u hown
  · exact ⟨fun u hu => (nomatch hu), (dbQueryFinish_keeptrying _ _ _).trans h.keeptrying⟩

theorem Reachable.live {j : Job} {w : World} {s : Sys} (h : Reachable j w s) : Live w s := by
  induction h with
  | init => exact ⟨fun _ hu => (nomatch hu), rfl⟩
  | step _ _ hs ih => exact ih.step hs

/-- A thread inside `db_query`…`db_query_finish` can take its next step, when `db_query` returns. -/
theorem next_inLock {j : Job} {s : Sys} {u : Nat} (hf : 3 ≤ j.fuel)
    (hkt : s.world.db.keeptrying = false) (hin : (s.pc u).inLock = true) : ∃ s', next j s u = some s' := by
  cases hpc : s.pc u with
  | locked =>
    obtain ⟨out, hq⟩ := dbQuery_returns j.qSize j.e j.c hf (j.task u).1 (j.task u).2 s.world hkt
    exact ⟨_, next_query hpc hq⟩
  | returned res => exact ⟨_, next_finish hpc⟩
  | start | finished => simp [hpc, Pc.inLock] at hin

/-- No deadlock, in every interleaving of any number of threads, while no `db_query` has released
the mutex itself: without `keeptrying` and with three passes of fuel, a thread that is not done can
take its next step, or waits for the mutex held by a thread that can, and that thread alone. -/
theorem reachable_no_deadlock {j : Job} {w : World} (hf : 3 ≤ j.fuel)
    (hkt : w.db.keeptrying = false) {s : Sys} (h : Reachable j w s) (he : s.early = false) (t : Nat)
    (ht : s.pc t ≠ .finished) :
    (∃ s', next j s t = some s') ∨
      ∃ u, s.owner = some u ∧ (∃ s', next j s u = some s') ∧ ∀ v, v ≠ u → next j s v = none := by
  have hl := h.live
  have hkt' : s.world.db.keeptrying = false := hl.keeptrying.trans hkt
  cases hpc : s.pc t with
  | start =>
    cases hown : s.owner with
    | none => exact .inl ⟨_, next_lock hpc hown⟩
    | some u =>
      have hin := hl.owner u hown
      exact .inr ⟨u, rfl, next_inLock hf hkt' hin, fun v hv => h.inv.alone he hin hv⟩
  | locked | returned _ => exact .inl (next_inLock hf hkt' (by simp [hpc, Pc.inLock]))
  | finished => exact absurd hpc ht

theorem reachable_no_deadlock_two :
    3 ≤ selectJob.fuel ∧ connectedWorld.db.keeptrying = false ∧
      ∃ s, Reachable selectJob connectedWorld s ∧ s.early = false ∧ s.pc 2 = .start ∧
        s.pc 2 ≠ .finished ∧ ((∃ s', next selectJob s 2 = some s') ∨
          ∃ u, s.owner = some u ∧ (∃ s', next selectJob s u = some s') ∧
            ∀ v, v ≠ u → next selectJob s v = none) := by
  obtain ⟨s, r, he, -, -, h2, -⟩ := selectJob_two
  have h2' : s.pc 2 ≠ .finished := by simp [h2]
  exact ⟨le_rfl, rfl, s, r, he, h2, h2',
    reachable_no_deadlock (w := connectedWorld) le_rfl rfl r he 2 h2'⟩

end DbPsql
