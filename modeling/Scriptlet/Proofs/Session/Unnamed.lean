import Mathlib.Data.List.Forall2
import Scriptlet.Proofs.Session.Moving

/-!
# A global that nobody names

A host may set a global before anything else. All globals that are declared later then have
another index, in the code as well as in the session, but as long as nobody names the first
one, this cannot be seen. The main statement is `unnamed_global_changes_nothing`, for every
list of requests: all answers are the same, and so is all that a host can ask a session for,
except that the listings of globals have one more entry.

Every action that a host can ask for commutes with putting globals in front, which is a way
to recast programs. For parsing and running this has been shown, and what is left is to put
the two together (`Request.moves_perform`).
-/

namespace Scriptlet

namespace Recast

/-- Globals in front of all others, while all places stay. -/
def behind (front : List (String × Value)) : Recast :=
  ⟨front, [], id, id⟩

variable {front : List (String × Value)}

@[simp] theorem map_token_behind (ts : List Token) : ts.map (behind front).token = ts := by
  have hid : (behind front).token = id := rfl
  rw [hid, List.map_id]

end Recast

/-! ### Actions -/

namespace Exec

variable {front : List (String × Value)} {s : Session} {source : String}

theorem fresh_of_toExcept {τ : Recast} {ts : List Token}
    (hsource : τ.Fresh (tokenize source).tokens) (hts : (tokenize source).toExcept = .ok ts) :
    τ.Fresh ts :=
  Lexed.tokens_of_toExcept hts ▸ hsource

theorem moves_parse (hsource : (Recast.behind front).Fresh (tokenize source).tokens) :
    Moves (.behind front) (Recast.behind front).block (parse source) (parse source) s := by
  cases htokens : (tokenize source).toExcept with
  | error e =>
      simp only [parse, htokens]
      exact Moves.throw (Recast.same_refl _)
  | ok ts =>
      have hread := moves_readBlock (s := s) rfl (fresh_of_toExcept hsource htokens)
      rwa [Recast.map_token_behind, ← parse_of_tokens htokens] at hread

theorem moves_parseExpr (hsource : (Recast.behind front).Fresh (tokenize source).tokens) :
    Moves (.behind front) (Recast.behind front).expr (parseExpr source) (parseExpr source) s := by
  cases htokens : (tokenize source).toExcept with
  | error e =>
      simp only [parseExpr, htokens]
      exact Moves.throw (Recast.same_refl _)
  | ok ts =>
      have hread := moves_readExpr (s := s) rfl (fresh_of_toExcept hsource htokens)
      rwa [Recast.map_token_behind, ← parseExpr_of_tokens htokens] at hread

theorem moves_load (hsource : (Recast.behind front).Fresh (tokenize source).tokens) :
    Moves (.behind front) id (load source) (load source) s :=
  (moves_parse hsource).bind fun stmts _ _ => moves_extend stmts

theorem moves_runProgram (hs : s.Closed) (fuel : Nat) :
    Moves (.behind front) id (runProgram fuel) (runProgram fuel) s :=
  .get_bind (moves_runStmts (Recast.ranged_of_closed hs) fuel fun r hr =>
    Recast.reaches_of_admits (hs.program r hr))

theorem moves_exec (hs : s.Closed) (fuel : Nat)
    (hsource : (Recast.behind front).Fresh (tokenize source).tokens) :
    Moves (.behind front) id (exec fuel source) (exec fuel source) s := by
  refine (moves_parse hsource).bind fun stmts t hparse => ?_
  obtain ⟨ht, hstmts⟩ := (hs.parse source).of_ok hparse
  exact moves_runStmts (Recast.ranged_of_closed ht) fuel fun r hr =>
    Recast.reaches_of_admits (hstmts r hr)

theorem moves_interpret (hs : s.Closed) (fuel : Nat)
    (hsource : (Recast.behind front).Fresh (tokenize source).tokens) :
    Moves (.behind front) id (interpret fuel source) (interpret fuel source) s :=
  (moves_load hsource).bind fun _ _ hload => moves_runProgram ((hs.load source).of_ok hload) fuel

theorem moves_eval (hs : s.Closed) (fuel : Nat)
    (hsource : (Recast.behind front).Fresh (tokenize source).tokens) :
    Moves (.behind front) id (eval fuel source) (eval fuel source) s := by
  refine (moves_parseExpr hsource).bind fun e t hparse => ?_
  obtain ⟨ht, he⟩ := (hs.parseExpr source).of_ok hparse
  exact moves_evalExpr (Recast.ranged_of_closed ht) fuel fun r hr =>
    Recast.reaches_of_admits (he r hr)

theorem moves_evalLine (hs : s.Closed) (fuel : Nat)
    (hsource : (Recast.behind front).Fresh (tokenize source).tokens) :
    Moves (.behind front) id (evalLine fuel source) (evalLine fuel source) s := by
  have heval : Moves (.behind front) id (some <$> eval fuel source) (some <$> eval fuel source) s :=
    (moves_eval hs fuel hsource).bind fun _ _ _ => Moves.pure rfl
  have hclosed : Upholds Session.Closed (fun _ => True) (fun _ => True)
      (some <$> eval fuel source) :=
    (lasting_closed.eval fuel source).bind fun _ _ => Upholds.pure trivial
  refine heval.tryCatch fun e e' t hend he => ?_
  have ht : t.Closed := ((hclosed s hs).of_error hend).1
  obtain rfl := Recast.eq_of_same rfl he
  split
  · exact (moves_exec ht fuel hsource).bind fun _ _ _ => Moves.pure rfl
  · exact Moves.throw (Recast.same_refl _)

theorem moves_call (hs : s.Closed) (fuel : Nat) (name : String) (args : List Value) :
    Moves (.behind front) id (call fuel name args) (call fuel name args) s := by
  have hindex : ((Recast.behind front).session s).env.functionIndex? name =
      s.env.functionIndex? name :=
    Recast.functionIndex?_env s.env name
  refine .get_bind ?_
  rw [hindex]
  cases s.env.functionIndex? name with
  | none => exact Moves.throw (Recast.same_refl _)
  | some index =>
      refine (moves_invoke hs fuel maxFrames index args).bind fun frame t _ => .get_bind ?_
      simp only [Recast.session, Recast.getElem?_functions_env, Option.map_map]
      exact Moves.pure rfl

end Exec

/-! ### Requests -/

namespace Recast

variable {τ : Recast}

theorem set_session {name : String} (h : τ.Spares name) (s : Session) (v : Value) :
    (τ.session s).set name v = τ.session (s.set name v) := by
  simp only [Session.set, session, set_env h]

theorem provide_session (s : Session) (name : String) (params : List String) (run : Native) :
    (τ.session s).provide name params run = τ.session (s.provide name params run) := by
  simp only [Session.provide, session, provide_env]

theorem provideAll_session (s : Session) (fs : List Session.Provided) :
    (τ.session s).provideAll fs = τ.session (s.provideAll fs) := by
  induction fs generalizing s with
  | nil => rfl
  | cons f fs ih =>
      simp only [Session.provideAll, List.foldl_cons, provide_session] at ih ⊢
      exact ih (s.provide f.name f.params f.native)

theorem setAll_session (s : Session) {constants : List (String × Value)}
    (h : ∀ c ∈ constants, τ.Spares c.1) :
    constants.foldl (fun s' c => s'.set c.1 c.2) (τ.session s) =
      τ.session (constants.foldl (fun s' c => s'.set c.1 c.2) s) := by
  induction constants generalizing s with
  | nil => rfl
  | cons c constants ih =>
      obtain ⟨hc, hconstants⟩ := List.forall_mem_cons.1 h
      rw [List.foldl_cons, List.foldl_cons, set_session hc, ih _ hconstants]

theorem withLibrary_session (s : Session) (h : ∀ c ∈ Library.constants, τ.Spares c.1) :
    (τ.session s).withLibrary = τ.session s.withLibrary := by
  simp only [Session.withLibrary, provideAll_session, setAll_session _ h]

end Recast

/-- Whether a token is the name `n`. -/
def Token.isName (n : String) (t : Token) : Bool :=
  match t.lexeme with
  | .name word => word == n
  | _ => false

namespace Request

/-- Whether a request does not name the global `n`: no source has it as an identifier, and it is
not asked for or set. The standard library sets its constants. -/
def Avoids (n : String) : Request → Prop
  | load source | exec source | interpret source | eval source | line source =>
      ∀ t ∈ (tokenize source).tokens, t.isName n = false
  | get name | set name _ => name ≠ n
  | library => ∀ c ∈ Library.constants, c.1 ≠ n
  | run | call _ _ | provide _ _ _ => True

instance (n : String) (r : Request) : Decidable (r.Avoids n) :=
  match r with
  | load source | exec source | interpret source | eval source | line source =>
      inferInstanceAs (Decidable (∀ t ∈ (tokenize source).tokens, t.isName n = false))
  | get name | set name _ => inferInstanceAs (Decidable (name ≠ n))
  | library => inferInstanceAs (Decidable (∀ c ∈ Library.constants, c.1 ≠ n))
  | run | call _ _ | provide _ _ _ => inferInstanceAs (Decidable True)

variable {n : String} {v : Value} {s : Session}

theorem spares_behind {name : String} (h : name ≠ n) : (Recast.behind [(n, v)]).Spares name := by
  refine ⟨fun g hg => ?_, rfl⟩
  rw [List.mem_singleton.1 hg]
  exact h.symm

theorem fresh_behind {ts : List Token} (h : ∀ t ∈ ts, t.isName n = false) :
    (Recast.behind [(n, v)]).Fresh ts := by
  intro t ht name hname
  have hother := h t ht
  rw [Token.isName, hname] at hother
  exact spares_behind (by simpa using hother)

/-- Every request that does not name the global does the same behind it. -/
theorem moves_perform (hs : s.Closed) {r : Request} (hr : r.Avoids n) (fuel : Nat) :
    Exec.Moves (.behind [(n, v)]) id (r.perform fuel) (r.perform fuel) s := by
  have hdone {α : Type} {x : Exec α} {give : α → List Value}
      (hx : Exec.Moves (.behind [(n, v)]) id x x s) :
      Exec.Moves (.behind [(n, v)]) id (give <$> x) (give <$> x) s :=
    hx.bind fun _ _ _ => Exec.Moves.pure rfl
  cases r with
  | load source => exact hdone (Exec.moves_load (fresh_behind hr))
  | run => exact hdone (Exec.moves_runProgram hs fuel)
  | exec source => exact hdone (Exec.moves_exec hs fuel (fresh_behind hr))
  | interpret source => exact hdone (Exec.moves_interpret hs fuel (fresh_behind hr))
  | eval source => exact hdone (Exec.moves_eval hs fuel (fresh_behind hr))
  | line source => exact hdone (Exec.moves_evalLine hs fuel (fresh_behind hr))
  | call name args => exact hdone (Exec.moves_call hs fuel name args)
  | get name =>
      have hget : ((Recast.behind [(n, v)]).env s.env).get? name = s.env.get? name :=
        Recast.get?_env (spares_behind hr) s.env
      refine .get_bind ?_
      simp only [Session.get?, Recast.session, hget]
      exact Exec.Moves.pure rfl
  | set name w =>
      refine congrArg (EStateM.Result.ok []) ?_
      exact Recast.set_session (spares_behind hr) s w
  | provide name params native =>
      exact congrArg (EStateM.Result.ok []) (Recast.provide_session s name params native)
  | library =>
      refine congrArg (EStateM.Result.ok []) (Recast.withLibrary_session s fun c hc => ?_)
      exact spares_behind (hr c hc)

end Request

/-! ### Histories -/

/-- The answer to a request. -/
abbrev Answer := Except Failure (List Value)

/-- The answers to requests that are made one after the other, each with the session after
it. -/
def Session.answers (fuel : Nat) (s : Session) : List Request → List (Answer × Session)
  | [] => []
  | r :: rs =>
      match r.perform fuel s with
      | .ok vs t => (.ok vs, t) :: t.answers fuel rs
      | .error e t => (.error e, t) :: t.answers fuel rs

/-- Whether a host sees the same of two answers and of the sessions after them, except that
the second session has the global `n` with the value `v`. -/
structure SeenAlike (n : String) (v : Value) (a b : Answer × Session) : Prop where
  answer : b.1 = a.1
  printed : b.2.printed = a.2.printed
  tree : b.2.tree = a.2.tree
  get : ∀ name, name ≠ n → b.2.get? name = a.2.get? name
  unnamed : b.2.get? n = some v
  names : b.2.names.filter (· ≠ n) = a.2.names
  globals : b.2.globals.filter (·.1 ≠ n) = a.2.globals

section Listings

variable {n : String} {v : Value} {s : Session}

/-- Both listings are in increasing order, so it is enough that they have the same names. -/
theorem names_behind (h : ((Recast.behind [(n, v)]).env s.env).Distinct) :
    ((Recast.behind [(n, v)]).session s).names.filter (· ≠ n) = s.names := by
  have hnames : ((Recast.behind [(n, v)]).env s.env).globalNames = n :: s.env.globalNames := by
    rw [Recast.env, Environment.globalNames_ofLists, Environment.globalNames,
      ← Environment.map_fst_globals]
    simp [Recast.behind]
  rw [Environment.Distinct, hnames] at h
  have hnew : n ∉ s.env.globalNames := (List.nodup_cons.1 h).1
  have hothers : (n :: s.env.globalNames).filter (· ≠ n) = s.env.globalNames := by
    rw [List.filter_cons_of_neg (by simp), List.filter_eq_self]
    intro name hname
    have hne : name ≠ n := fun heq => hnew (heq ▸ hname)
    simpa using hne
  have hperm : (((Recast.behind [(n, v)]).session s).names.filter (· ≠ n)).Perm
      ((n :: s.env.globalNames).filter (· ≠ n)) := by
    rw [← hnames]
    exact (List.mergeSort_perm _ _).filter _
  rw [hothers] at hperm
  exact List.Perm.eq_of_pairwise (fun _ _ _ _ => String.le_antisymm)
    ((pairwise_mergeSort_le _).filter _) (pairwise_mergeSort_le _)
    (hperm.trans (List.mergeSort_perm _ _).symm)

theorem get?_behind {name : String} (h : name ≠ n) :
    ((Recast.behind [(n, v)]).session s).get? name = s.get? name :=
  Recast.get?_env (Request.spares_behind h) s.env

theorem globals_behind (h : ((Recast.behind [(n, v)]).env s.env).Distinct) :
    ((Recast.behind [(n, v)]).session s).globals.filter (·.1 ≠ n) = s.globals := by
  unfold Session.globals
  rw [← names_behind h, List.filter_filterMap, List.filterMap_filter]
  refine List.filterMap_congr fun name _ => ?_
  by_cases hname : name = n
  · cases ((Recast.behind [(n, v)]).session s).get? name <;> simp [hname]
  · rw [get?_behind hname]
    cases s.get? name <;> simp [hname]

theorem seenAlike_behind (answer : Answer) (h : ((Recast.behind [(n, v)]).env s.env).Distinct) :
    SeenAlike n v (answer, s) (answer, (Recast.behind [(n, v)]).session s) where
  answer := rfl
  printed := rfl
  tree := Recast.tree_session _ s
  get _ hname := get?_behind hname
  unnamed := by
    have hindex : ((Recast.behind [(n, v)]).env s.env).globalIndex? n = some 0 := by
      simp [Environment.globalIndex?_eq_findIdx?, Recast.behind, List.findIdx?_cons]
    simp only [Session.get?, Environment.get?, Recast.session, hindex]
    rfl
  names := names_behind h
  globals := globals_behind h

end Listings

/-- The two histories go on alike from a session and the session behind the global. -/
theorem forall₂_answers {n : String} {v : Value} {rs : List Request} (hrs : ∀ r ∈ rs, r.Avoids n)
    (fuel : Nat) {s : Session} (hs : s.Closed)
    (hdistinct : ((Recast.behind [(n, v)]).env s.env).Distinct) :
    List.Forall₂ (SeenAlike n v) (s.answers fuel rs)
      (((Recast.behind [(n, v)]).session s).answers fuel rs) := by
  induction rs generalizing s with
  | nil => exact .nil
  | cons r rs ih =>
      obtain ⟨hr, hrs⟩ := List.forall_mem_cons.1 hrs
      have hmoves : r.perform fuel ((Recast.behind [(n, v)]).session s) = _ :=
        (Request.moves_perform hs hr fuel).result_eq rfl
      have hclosed := lasting_closed.perform fuel r s hs
      have hkept := lasting_distinct.perform fuel r ((Recast.behind [(n, v)]).session s) hdistinct
      unfold Session.answers
      cases hend : r.perform fuel s with
      | ok vs t =>
          rw [hend] at hmoves
          have ht := (hkept.of_ok hmoves).1
          rw [hmoves]
          exact .cons (seenAlike_behind _ ht) (ih hrs (hclosed.of_ok hend).1 ht)
      | error e t =>
          rw [hend] at hmoves
          have ht := (hkept.of_error hmoves).1
          rw [hmoves]
          exact .cons (seenAlike_behind _ ht) (ih hrs (hclosed.of_error hend).1 ht)

/-- A global that is set before anything else, and that no request names, changes nothing: the
answers to all requests are the same, and so are after each of them the printed text, the
tree and the other globals. Only listings of the globals gain it. -/
theorem unnamed_global_changes_nothing {n : String} (v : Value) {rs : List Request}
    (hrs : ∀ r ∈ rs, r.Avoids n) (fuel : Nat) :
    List.Forall₂ (SeenAlike n v) (Session.empty.answers fuel rs)
      ((Session.empty.set n v).answers fuel rs) := by
  have hdistinct : ((Recast.behind [(n, v)]).env Session.empty.env).Distinct :=
    List.nodup_cons.2 ⟨List.not_mem_nil, List.nodup_nil⟩
  have hset : Session.empty.set n v = (Recast.behind [(n, v)]).session Session.empty := rfl
  rw [hset]
  exact forall₂_answers hrs fuel .empty hdistinct

/-- Requests with globals of their own, a refused source and a call. -/
def namingOthers : List Request :=
  [.library, .load "DEF f a; IMP f \x7b total = total + a; f = total; \x7d",
    .exec "x = f(2); print(x)", .exec "y = ; z = 1", .set "w" (.int 3), .line "w + f(x)",
    .call "f" [.int 1], .get "total", .run]

theorem unnamed_global_changes_nothing_namingOthers :
    (∀ r ∈ namingOthers, r.Avoids "unused") ∧
      List.Forall₂ (SeenAlike "unused" (.int 7)) (Session.empty.answers 10 namingOthers)
        ((Session.empty.set "unused" (.int 7)).answers 10 namingOthers) := by
  have hrs : ∀ r ∈ namingOthers, r.Avoids "unused" := by decide +kernel
  exact ⟨hrs, unnamed_global_changes_nothing (.int 7) hrs 10⟩

end Scriptlet
