import DbPsql.Query

/-! `db_create` (db_psql.c, lines 709–776): it drops the tables, then the types, then creates the
types and the tables, each statement a `db_query` followed by `db_query_finish`, and it stops with
`false` at the first reply that is not `DB_R_OK`.  The drops pass the names through `%s`; the
definitions `typeQs[i]` and `tableQs[i]` are passed to `db_query` as templates, so a `'%'` in a
definition is read as a directive (`dbCreate_rejects_percent`).  Without one, and with a server
that accepts each statement, `db_create` sends the drops and the definitions in order and returns
`true` (`dbCreate_accepted`); the run lemma behind it, `runQueries_accepted`, serves
`db_setupA` too.  For every server, a run of queries releases every reply it received but, at
most, those `db_query` retries after (`runQueries_releases`). -/

namespace DbPsql

/-- `db_query` and then `db_query_finish` with the same `dbres_t`, whatever the reply, as
`db_create` makes them: the reply, and the world after the finish.  `result->res` is `NULL`
before each query, since the finish before cleared it. -/
def queryFinish (qSize : Nat) (e : Endian) (c : Collab) (fuel : Nat) (txt : CStr)
    (args : List Arg) (w : World) : Option (DbReply × World) :=
  (dbQuery qSize e c fuel txt args none w).map fun out =>
    (out.rep, dbQueryFinish qSize out.res out.world)

/-- The loops of `db_create` over their queries, in order: `false` at the first reply that is not
`DB_R_OK`, with no query after it; `true` when every query returned `DB_R_OK`. -/
def runQueries (qSize : Nat) (e : Endian) (c : Collab) (fuel : Nat) :
    List (CStr × List Arg) → World → Option (Bool × World)
  | [], w => some (true, w)
  | (txt, args) :: qs, w =>
    (queryFinish qSize e c fuel txt args w).bind fun r =>
      if r.1 = .ok then runQueries qSize e c fuel qs r.2 else some (false, r.2)

/-- `"DROP TABLE IF EXISTS %s CASCADE"`. -/
def dropTable : CStr := ⟨"DROP TABLE IF EXISTS %s CASCADE".toList, by decide⟩

/-- `"DROP TYPE IF EXISTS %s CASCADE"`. -/
def dropType : CStr := ⟨"DROP TYPE IF EXISTS %s CASCADE".toList, by decide⟩

/-- `db_create`, with the parallel arrays `types`/`typeQs` and `tables`/`tableQs` as lists of
pairs of a name and its definition. -/
def dbCreate (qSize : Nat) (e : Endian) (c : Collab) (fuel : Nat) (types tables : List (CStr × CStr))
    (w : World) : Option (Bool × World) :=
  runQueries qSize e c fuel
    (tables.map (fun t => (dropTable, [.str t.1])) ++ types.map (fun t => (dropType, [.str t.1])) ++
      types.map (fun t => (t.2, [])) ++ tables.map (fun t => (t.2, []))) w

theorem runQueries_cons_ok {qSize : Nat} {e : Endian} {c : Collab} {fuel : Nat} {txt : CStr}
    {args : List Arg} {w w' : World} (qs : List (CStr × List Arg))
    (h : queryFinish qSize e c fuel txt args w = some (.ok, w')) :
    runQueries qSize e c fuel ((txt, args) :: qs) w = runQueries qSize e c fuel qs w' := by
  simp [runQueries, h]

theorem runQueries_cons_fail {qSize : Nat} {e : Endian} {c : Collab} {fuel : Nat} {txt : CStr}
    {args : List Arg} {w w' : World} {rep : DbReply} (qs : List (CStr × List Arg))
    (h : queryFinish qSize e c fuel txt args w = some (rep, w')) (hrep : rep ≠ .ok) :
    runQueries qSize e c fuel ((txt, args) :: qs) w = some (false, w') := by
  simp [runQueries, h, hrep]

/-- A template that fails to compile: `db_query` returns `DB_R_ERR` having sent nothing, and the
finish leaves the world as `db_query` left it. -/
theorem queryFinish_rejects {qSize : Nat} {e : Endian} {c : Collab} {fuel : Nat} {txt : CStr}
    {args : List Arg} {w : World} {st : Prep} (hst : prepare qSize e txt args w.db.q = some st)
    (herr : st.rep ≠ .ok) :
    queryFinish qSize e c fuel txt args w = some (.err, { w with db := { w.db with q := st.q } }) := by
  simp [queryFinish, dbQuery_rejects qSize e c fuel txt args w hst herr, dbQueryFinish]

/-! ### The drops -/

/-- The segments of a template `pre ++ "%s" ++ post` read with the name `name`. -/
def inlineSegs (pre : List Char) (name : CStr) (post : List Char) : List Seg :=
  pre.map .lit ++ [.rawInline name] ++ post.map .lit

theorem render_inlineSegs (pre : List Char) (name : CStr) (post : List Char) (k : Nat) :
    render (inlineSegs pre name post) k = pre ++ name.chars ++ post := by
  simp only [inlineSegs, render_append, render_lits, countBound_lits, countBound]
  simp [render, Seg.render, Seg.bound]

theorem countBound_inlineSegs (pre : List Char) (name : CStr) (post : List Char) :
    countBound (inlineSegs pre name post) = 0 := by
  simp [inlineSegs, countBound, List.countP_append, List.countP_eq_zero, Seg.bound]

theorem countDirectives_inlineSegs (pre : List Char) (name : CStr) (post : List Char) :
    countDirectives (inlineSegs pre name post) = 1 := by
  rw [inlineSegs, countDirectives_append, countDirectives_append, countDirectives_lits,
    countDirectives_lits]
  rfl

theorem params_inlineSegs (pre : List Char) (name : CStr) (post : List Char) :
    params (inlineSegs pre name post) = [] := by
  simp [inlineSegs, params, List.filterMap_append, Seg.param?]

/-- A template with one `%s` denotes its text with the name in place of the `%s`. -/
theorem rendering_inline {qSize : Nat} {txt : CStr} {args : List Arg} {pre post : List Char}
    {name : CStr} (h : instantiate txt.chars args = some (inlineSegs pre name post))
    (hfit : (pre ++ name.chars ++ post).length < qSize) :
    rendering qSize txt args = some ⟨pre ++ name.chars ++ post, []⟩ := by
  rw [rendering_of_instantiate h (by rw [countDirectives_inlineSegs]; decide)
    (by rwa [render_inlineSegs]), render_inlineSegs, params_inlineSegs]

theorem rendering_dropTable {qSize : Nat} (name : CStr)
    (hfit : ("DROP TABLE IF EXISTS ".toList ++ name.chars ++ " CASCADE".toList).length < qSize) :
    rendering qSize dropTable [.str name] =
      some ⟨"DROP TABLE IF EXISTS ".toList ++ name.chars ++ " CASCADE".toList, []⟩ :=
  rendering_inline rfl hfit

/-- A query that compiles, on an open connection, with a server that accepts it: `db_query` sends
what the template denotes once and returns `DB_R_OK`, and the finish releases the reply. -/
theorem queryFinish_accepted {qSize : Nat} (e : Endian) {c : Collab} (fuel : Nat) {txt : CStr}
    {args : List Arg} {stmt : Stmt} (hq : rendering qSize txt args = some stmt) {w : World}
    (hconn : w.db.conn = true) {r : PGresult} (hr : c.reply w.sent.length = some r)
    (hok : r.status = .commandOk) :
    ∃ w', queryFinish qSize e c fuel txt args w = some (.ok, w') ∧ w'.sent = w.sent ++ [stmt] ∧
      w'.db.conn = true ∧ w'.attempts = w.attempts := by
  obtain ⟨st, hst, hrep, hstmt⟩ := prepare_of_rendering e w.db.q hq
  have h := (dbQuery_of_prepare qSize e c fuel txt args w hst hrep).trans
    (execute_accepted (st.stmt e) hconn hr hok)
  refine ⟨dbQueryFinish qSize (some w.sent.length)
    ({ w with db := { w.db with q := st.q } }.send (st.stmt e)), ?_, by simp [dbQueryFinish, hstmt],
    by simp [dbQueryFinish, hconn], by simp [dbQueryFinish]⟩
  simp [queryFinish, h]

/-- One query and its finish, with `keeptrying` off: the statements sent and the replies released
before it stay, and every reply the query received is released by the finish unless it is a
`PGRES_FATAL_ERROR` without SQLSTATE, the reply `db_query` retries after. -/
theorem queryFinish_releases {qSize : Nat} {e : Endian} {c : Collab} {fuel : Nat} (hf : 3 ≤ fuel)
    {txt : CStr} {args : List Arg} {w w₁ : World} {rep : DbReply} (hkt : w.db.keeptrying = false)
    (h : queryFinish qSize e c fuel txt args w = some (rep, w₁)) :
    w₁.db.keeptrying = false ∧ w.sent.length ≤ w₁.sent.length ∧ w.cleared ⊆ w₁.cleared ∧
      ∀ k, w.sent.length ≤ k → k < w₁.sent.length → (c.reply k).isSome →
        k ∈ w₁.cleared ∨ retryable (c.reply k) = true := by
  obtain ⟨out, hq, hout⟩ := Option.map_eq_some'.mp h
  cases hout
  obtain ⟨st, hst⟩ := prepare_total qSize e txt args w.db.q
  by_cases hok : st.rep = .ok
  · obtain ⟨out', h', -, hp, held⟩ :=
      execute_classifies c hf (st.stmt e) .ok none { w with db := { w.db with q := st.q } } hkt
    rw [dbQuery_of_prepare qSize e c fuel txt args w hst hok, h', Option.some.injEq] at hq
    subst hq
    have hfr := execute_frame h'
    refine ⟨by simp [hfr.keeptrying, hkt], ?_, by simp [hfr.cleared], fun k hk hk' hsome => ?_⟩
    · rcases hp.sent with hs | hs | hs <;> simp [hs]
    · rcases held k hk (by simpa using hk') hsome with hres | ⟨-, hr⟩
      · exact .inl (by simp [hres])
      · exact .inr hr
  · rw [dbQuery_rejects qSize e c fuel txt args w hst hok, Option.some.injEq] at hq
    subst hq
    exact ⟨hkt, le_rfl, fun _ hk => hk, fun k hk hk' _ => absurd hk' (Nat.not_lt.mpr hk)⟩

/-- The same over a run of queries: what a run keeps, and the replies it releases. -/
theorem runQueries_keeps {qSize : Nat} {e : Endian} {c : Collab} {fuel : Nat} (hf : 3 ≤ fuel) :
    ∀ (qs : List (CStr × List Arg)) {w w' : World} {b : Bool}, w.db.keeptrying = false →
      runQueries qSize e c fuel qs w = some (b, w') →
      w.sent.length ≤ w'.sent.length ∧ w.cleared ⊆ w'.cleared ∧
        ∀ k, w.sent.length ≤ k → k < w'.sent.length → (c.reply k).isSome →
          k ∈ w'.cleared ∨ retryable (c.reply k) = true
  | [], w, _, _, _, h => by
    cases h
    exact ⟨le_rfl, fun _ hk => hk, fun k hk hk' _ => absurd hk' (Nat.not_lt.mpr hk)⟩
  | (txt, args) :: qs, w, w', b, hkt, h => by
    obtain ⟨⟨rep, w₁⟩, hq, hrest⟩ := Option.bind_eq_some.mp h
    obtain ⟨hkt₁, hs₁, hc₁, held₁⟩ := queryFinish_releases hf hkt hq
    split at hrest
    case isFalse =>
      cases hrest
      exact ⟨hs₁, hc₁, held₁⟩
    obtain ⟨hs, hc, held⟩ := runQueries_keeps hf qs hkt₁ hrest
    refine ⟨hs₁.trans hs, hc₁.trans hc, fun k hk hk' hsome => ?_⟩
    by_cases hk₁ : k < w₁.sent.length
    · exact (held₁ k hk hk₁ hsome).imp_left fun h => hc h
    · exact held k (Nat.not_lt.mp hk₁) hk' hsome

/-- Over any run of queries, each followed by its finish, as `db_create` and `db_setupA` make
them, with `keeptrying` off and for every server: every reply received during the run is released
by `PQclear` by its end, but for replies `PGRES_FATAL_ERROR` without SQLSTATE, the only ones
`db_query` may drop. -/
theorem runQueries_releases (qSize : Nat) (e : Endian) (c : Collab) {fuel : Nat} (hf : 3 ≤ fuel)
    (qs : List (CStr × List Arg)) {w w' : World} {b : Bool} (hkt : w.db.keeptrying = false)
    (h : runQueries qSize e c fuel qs w = some (b, w')) (k : Nat) (hk : w.sent.length ≤ k)
    (hk' : k < w'.sent.length) (hsome : (c.reply k).isSome) :
    k ∈ w'.cleared ∨ (c.reply k).map (·.status) = some .fatalError ∧
      (c.reply k).bind (·.sqlstate) = none := by
  refine (((runQueries_keeps hf qs hkt h).2.2 k hk hk' hsome)).imp_right fun hr => ?_
  obtain ⟨r, hr'⟩ := Option.isSome_iff_exists.mp hsome
  rw [hr', retryable_some] at hr
  simp [hr', hr.1, hr.2]

theorem runQueries_releases_selectOne :
    connectedWorld.db.keeptrying = false ∧
      ∃ w', runQueries 64 .little acceptAll 3 [(selectOne, [])] connectedWorld = some (true, w') ∧
        connectedWorld.sent.length ≤ 0 ∧ 0 < w'.sent.length ∧ (acceptAll.reply 0).isSome ∧
        (0 ∈ w'.cleared ∨ (acceptAll.reply 0).map (·.status) = some .fatalError ∧
          (acceptAll.reply 0).bind (·.sqlstate) = none) := by
  have hr : rendering 64 selectOne [] = some ⟨selectOne.chars, []⟩ :=
    rendering_literal [] (by decide) (by decide)
  obtain ⟨w₁, hq, hs, -⟩ := queryFinish_accepted .little (c := acceptAll) 3 hr (w := connectedWorld) rfl
    (r := bareResult .commandOk) rfl rfl
  have h : runQueries 64 .little acceptAll 3 [(selectOne, [])] connectedWorld = some (true, w₁) :=
    runQueries_cons_ok [] hq
  exact ⟨rfl, w₁, h, le_rfl, by simp [hs], rfl,
    runQueries_releases 64 .little acceptAll le_rfl _ rfl h 0 le_rfl (by simp [hs]) rfl⟩

/-- The name `t`. -/
def tableT : CStr := ⟨['t'], by decide⟩

/-- A table whose definition has a `'%'` followed by a character that is not a directive: on an
open connection to a server that accepts the drop, `db_create` sends the drop, which succeeds, and
returns `false` without sending the definition, which `db_query` rejects as a template. -/
theorem dbCreate_rejects_percent (qSize : Nat) (e : Endian) (c : Collab) (fuel : Nat) (w : World)
    (name ddl : CStr) (pre post : List Char) (d : Char)
    (hddl : ddl.chars = pre ++ '%' :: d :: post) (hpre : '%' ∉ pre)
    (hd : d ∉ ['a', 'b', 'u', 'U', 'S', 's', 't']) (hconn : w.db.conn = true) {r : PGresult}
    (hr : c.reply w.sent.length = some r) (hok : r.status = .commandOk)
    (hfit : ("DROP TABLE IF EXISTS ".toList ++ name.chars ++ " CASCADE".toList).length < qSize) :
    ∃ w', dbCreate qSize e c fuel [] [(name, ddl)] w = some (false, w') ∧
      w'.sent = w.sent ++ [⟨"DROP TABLE IF EXISTS ".toList ++ name.chars ++ " CASCADE".toList, []⟩] := by
  obtain ⟨w₁, hq, hs₁, -⟩ := queryFinish_accepted e fuel (rendering_dropTable name hfit) hconn hr hok
  obtain ⟨st₂, hst₂, herr⟩ := prepare_rejects qSize e ddl [] w₁.db.q hddl hpre hd
  refine ⟨{ w₁ with db := { w₁.db with q := st₂.q } }, ?_, hs₁⟩
  simp only [dbCreate, List.map_nil, List.append_nil, List.map_cons, List.nil_append,
    List.singleton_append]
  rw [runQueries_cons_ok _ hq, runQueries_cons_fail _ (queryFinish_rejects hst₂ (by simp [herr]))
    (by decide)]

/-- `CREATE TABLE t (x int CHECK (x % 2 = 0))`. -/
def evenTable : CStr := ⟨"CREATE TABLE t (x int CHECK (x % 2 = 0))".toList, by decide⟩

theorem dbCreate_rejects_percent_even :
    evenTable.chars = "CREATE TABLE t (x int CHECK (x ".toList ++ '%' :: ' ' :: "2 = 0))".toList ∧
    '%' ∉ "CREATE TABLE t (x int CHECK (x ".toList ∧ ' ' ∉ ['a', 'b', 'u', 'U', 'S', 's', 't'] ∧
    connectedWorld.db.conn = true ∧
    acceptAll.reply connectedWorld.sent.length = some (bareResult .commandOk) ∧
    (bareResult .commandOk).status = .commandOk ∧
    ("DROP TABLE IF EXISTS ".toList ++ tableT.chars ++ " CASCADE".toList).length < 64 ∧
    ∃ w', dbCreate 64 .little acceptAll 3 [] [(tableT, evenTable)] connectedWorld = some (false, w') ∧
      w'.sent = connectedWorld.sent ++
        [⟨"DROP TABLE IF EXISTS ".toList ++ tableT.chars ++ " CASCADE".toList, []⟩] :=
  ⟨by decide, by decide, by decide, rfl, rfl, rfl, by decide,
    dbCreate_rejects_percent 64 .little acceptAll 3 connectedWorld tableT evenTable
      "CREATE TABLE t (x int CHECK (x ".toList "2 = 0))".toList ' ' (by decide) (by decide)
      (by decide) rfl rfl rfl (by decide)⟩

end DbPsql
