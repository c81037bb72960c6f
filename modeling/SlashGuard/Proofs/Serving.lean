import SlashGuard.Proofs.Decoding
import SlashGuard.Proofs.Framing
import SlashGuard.Proofs.Registry

/-! A connection answers the lines that arrive one after the other. A request comes down to one call
of the engine, or to none where it cannot be read, no network is known or its key is not
registered, and the reply tells how the call ended. -/
namespace SlashGuard

namespace Request

/-- The network of a request is the one that it names, or else the configured one. -/
def OnNetwork (configured : Option Root) : Option String → Root → Prop
  | none, n => configured = some n
  | some text, n => Root.ofHex .network text = .ok n

structure Signs (configured : Option Root) (e : Engine) (key root : String)
    (network : Option String) (id : Int) (r n : Root) : Prop where
  key : ∃ k, PublicKey.ofHex key = .ok k ∧ e.Identifies k id
  root : Root.ofHex .signing root = .ok r
  network : OnNetwork configured network n

/-- The call of the engine that a request comes down to. -/
inductive Asks (configured : Option Root) (e : Engine) : Request → Call → Prop
  | register {texts : List String} {keys : List PublicKey}
      (read : List.Forall₂ (fun key text => PublicKey.ofHex text = .ok key) keys texts) :
      Asks configured e (.register texts) (.register keys)
  | lookup {text : String} {key : PublicKey} (read : PublicKey.ofHex text = .ok key) :
      Asks configured e (.lookup text) (.lookup key)
  | block {key root : String} {slot : UInt64} {network : Option String} {id : Int} {r n : Root}
      (signs : Signs configured e key root network id r n) :
      Asks configured e (.block key slot root network) (.maySignBlock id ⟨⟨slot⟩, r⟩ n)
  | attestation {key root : String} {source target : UInt64} {network : Option String} {id : Int}
      {r n : Root} (signs : Signs configured e key root network id r n) :
      Asks configured e (.attestation key source target root network)
        (.maySignAttestation id ⟨⟨source⟩, ⟨target⟩, r⟩ n)
  | prune {keep : UInt64} {text : String} {key : PublicKey} {id : Int}
      (read : PublicKey.ofHex text = .ok key) (known : e.Identifies key id) :
      Asks configured e (.prune keep (some text)) (.prune keep.toNat id)
  | pruneAll {keep : UInt64} : Asks configured e (.prune keep none) (.pruneAll keep.toNat)
  | importText {text : String} :
      Asks configured e (.importText text) (.importText (Text.Utf8.ofText text))
  | exportText : Asks configured e .exportText .exportText

def IsToSign : Request → Prop
  | .block .. | .attestation .. => True
  | _ => False

section Unique

variable {configured : Option Root} {e : Engine}

theorem OnNetwork.unique {network : Option String} {n n' : Root}
    (left : OnNetwork configured network n) (right : OnNetwork configured network n') :
    n = n' := by
  cases network with
  | none => exact Option.some.inj (left.symm.trans right)
  | some text => exact Except.ok.inj (left.symm.trans right)

theorem identifies_unique {key : PublicKey} {id id' : Int} (left : e.Identifies key id)
    (right : e.Identifies key id') : id = id' := by
  have same := Except.ok.inj (left.symm.trans right)
  cases same
  rfl

theorem Signs.unique {key root : String} {network : Option String} {id id' : Int}
    {r r' n n' : Root} (left : Signs configured e key root network id r n)
    (right : Signs configured e key root network id' r' n') : id = id' ∧ r = r' ∧ n = n' := by
  obtain ⟨k, read, known⟩ := left.key
  obtain ⟨k', read', known'⟩ := right.key
  cases read.symm.trans read'
  exact ⟨identifies_unique known known', Except.ok.inj (left.root.symm.trans right.root),
    left.network.unique right.network⟩

theorem Asks.unique {r : Request} {c c' : Call} (left : r.Asks configured e c)
    (right : r.Asks configured e c') : c = c' := by
  cases left with
  | register read =>
    cases right with
    | register read' =>
      cases (mapM_eq_ok.mpr read).symm.trans (mapM_eq_ok.mpr read')
      rfl
  | lookup read =>
    cases right with
    | lookup read' =>
      cases read.symm.trans read'
      rfl
  | block signs =>
    cases right with
    | block signs' =>
      obtain ⟨rfl, rfl, rfl⟩ := signs.unique signs'
      rfl
  | attestation signs =>
    cases right with
    | attestation signs' =>
      obtain ⟨rfl, rfl, rfl⟩ := signs.unique signs'
      rfl
  | prune read known =>
    cases right with
    | prune read' known' =>
      cases read.symm.trans read'
      rw [identifies_unique known known']
  | pruneAll =>
    cases right
    rfl
  | importText =>
    cases right
    rfl
  | exportText =>
    cases right
    rfl

end Unique

theorem Asks.sign {configured : Option Root} {e : Engine} {r : Request} {c : Call}
    (asks : r.Asks configured e c) (sign : r.IsToSign) :
    ∃ id network record, c = .sign id network record := by
  cases asks with
  | block _ => exact ⟨_, _, .block _, rfl⟩
  | attestation _ => exact ⟨_, _, .attestation _, rfl⟩
  | _ => contradiction

end Request

inductive Answer.Tells : Answer → Reply → Prop
  | ids (ids : List Int) : Tells (.ids ids) (.registered ids)
  | id (id : Option Int) : Tells (.id id) (.validator id)
  | verdict (v : Verdict) : Tells (.verdict v) (.decision v)
  | outcome (o : PruneOutcome) : Tells (.outcome o) (.pruned (.ofOutcome o))
  | pruned (s : PruneSummary) : Tells (.pruned s) (.pruned s)
  | imported (s : ImportSummary) : Tells (.imported s) (.imported s)
  | text (s : String) : Tells (.text s) (.exported s)

namespace Service

variable {s : Service} {c : Call}

/-- A call is made: its answer is told and the engine is what it left, or its failure is told and
nothing has changed. -/
inductive Reports (s : Service) (c : Call) : Reply × Service → Prop
  | answered {a : Answer} {e : Engine} {reply : Reply} (called : s.engine.call c = (.ok a, e))
      (tells : a.Tells reply) : Reports s c (reply, { s with engine := e })
  | failed {f : Failure} {message : String} (called : s.engine.call c = (.error f, s.engine)) :
      Reports s c (.error message, s)

theorem identifies_iff {e : Engine} {key : PublicKey} {id : Int} :
    e.Identifies key id ↔ e.lookup key = .ok (some id) := by
  simp only [Engine.Identifies, Engine.call, Engine.attempt]
  cases e.lookup key <;> simp [Except.map]

theorem reports_of_attempt {r : Request} {α : Type} {x : Except Failure (α × Engine)}
    (what : String) (f : α → Answer) (g : α → Reply)
    (attempts : s.engine.attempt c = x.map fun (a, e) => (f a, e)) (tells : ∀ a, (f a).Tells (g a))
    (answers : s.answer r = (failed what ServiceFailure.message (x.mapError .engine)).map
      fun (a, e) => (g a, { s with engine := e })) : s.Reports c (s.handle r) := by
  cases x with
  | error failure =>
    have called : s.engine.call c = (.error failure, s.engine) := by
      rw [Engine.call, attempts]
      rfl
    rw [handle, answers]
    exact .failed called
  | ok answer =>
    obtain ⟨a, e⟩ := answer
    have called : s.engine.call c = (.ok (f a), e) := by
      rw [Engine.call, attempts]
      rfl
    rw [handle, answers]
    exact .answered called (tells a)

theorem parseKey_eq_ok {text : String} {key : PublicKey} :
    parseKey text = .ok key ↔ PublicKey.ofHex text = .ok key := mapError_eq_ok

theorem parseRoot_eq_ok {text : String} {r : Root} :
    parseRoot text = .ok r ↔ Root.ofHex .signing text = .ok r := mapError_eq_ok

theorem resolve_eq_ok {key : PublicKey} {id : Int} :
    s.resolve key = .ok id ↔ s.engine.Identifies key id := by
  rw [identifies_iff, resolve]
  cases s.engine.lookup key with
  | error f => simp [bind, Except.bind, Except.mapError]
  | ok found => cases found <;> simp [bind, Except.bind, Except.mapError, pure, Except.pure]

theorem onNetwork_iff {network : Option String} {n : Root} :
    Request.OnNetwork s.network network n ↔
      ∃ supplied, parseNetwork network = .ok supplied ∧ s.networkOf supplied = .ok n := by
  cases network with
  | none =>
    cases known : s.network <;> simp [Request.OnNetwork, parseNetwork, networkOf, known]
  | some text =>
    cases read : Root.ofHex .network text <;>
      simp [Request.OnNetwork, parseNetwork, networkOf, read]

section Signing

variable {what key root : String} {network : Option String}
  {check : Int → Root → Root → Except Failure (Verdict × Engine)}

def answerToSign (s : Service) (what key root : String) (network : Option String)
    (check : Int → Root → Root → Except Failure (Verdict × Engine)) :
    Except String (Reply × Service) := do
  let key ← parseKey key
  let root ← parseRoot root
  let network ← parseNetwork network
  let (v, s) ← failed what ServiceFailure.message do
    let n ← s.networkOf network
    let id ← s.resolve key
    let (v, e) ← (check id root n).mapError .engine
    return (v, { s with engine := e })
  return (.decision v, s)

theorem answer_block (key root : String) (slot : UInt64) (network : Option String) :
    s.answer (.block key slot root network) =
      s.answerToSign "Block check failed" key root network fun id r n =>
        s.engine.maySignBlock id ⟨⟨slot⟩, r⟩ n := rfl

theorem answer_attestation (key root : String) (source target : UInt64)
    (network : Option String) :
    s.answer (.attestation key source target root network) =
      s.answerToSign "Attestation check failed" key root network fun id r n =>
        s.engine.maySignAttestation id ⟨⟨source⟩, ⟨target⟩, r⟩ n := rfl

theorem answerToSign_of_signs {id : Int} {r n : Root}
    (signs : Request.Signs s.network s.engine key root network id r n) :
    s.answerToSign what key root network check =
      (failed what ServiceFailure.message ((check id r n).mapError .engine)).map
        fun (v, e) => (.decision v, { s with engine := e }) := by
  obtain ⟨k, readKey, known⟩ := signs.key
  obtain ⟨supplied, readNetwork, chosen⟩ := onNetwork_iff.mp signs.network
  simp only [answerToSign, parseKey_eq_ok.mpr readKey, parseRoot_eq_ok.mpr signs.root, readNetwork,
    chosen, resolve_eq_ok.mpr known, bind, Except.bind]
  cases check id r n <;> rfl

theorem signs_of_answer {told : Reply × Service}
    (answered : s.answerToSign what key root network check = .ok told) :
    ∃ id r n, Request.Signs s.network s.engine key root network id r n := by
  unfold answerToSign at answered
  obtain ⟨k, readKey, answered⟩ := bind_eq_ok.mp answered
  obtain ⟨r, readRoot, answered⟩ := bind_eq_ok.mp answered
  obtain ⟨supplied, readNetwork, answered⟩ := bind_eq_ok.mp answered
  obtain ⟨_, checked, -⟩ := bind_eq_ok.mp answered
  obtain ⟨n, chosen, checked⟩ := bind_eq_ok.mp (mapError_eq_ok.mp checked)
  obtain ⟨id, known, -⟩ := bind_eq_ok.mp checked
  exact ⟨id, r, n, ⟨k, parseKey_eq_ok.mp readKey, resolve_eq_ok.mp known⟩,
    parseRoot_eq_ok.mp readRoot, onNetwork_iff.mpr ⟨supplied, readNetwork, chosen⟩⟩

end Signing

theorem reports_of_asks {r : Request} (asks : r.Asks s.network s.engine c) :
    s.Reports c (s.handle r) := by
  cases asks with
  | @register texts keys read =>
    have parsed : texts.mapM parseKey = .ok keys :=
      mapM_eq_ok.mpr (read.imp fun _ _ => parseKey_eq_ok.mpr)
    refine reports_of_attempt (x := s.engine.register keys) "Registration failed" .ids
      .registered rfl .ids ?_
    simp only [answer, parsed, bind, Except.bind]
    cases s.engine.register keys <;> rfl
  | @lookup text key read =>
    refine reports_of_attempt (x := (s.engine.lookup key).map fun id => (id, s.engine))
      "Lookup failed" .id .validator ?_ .id ?_
    · simp only [Engine.attempt]
      cases s.engine.lookup key <;> rfl
    · simp only [answer, parseKey_eq_ok.mpr read, bind, Except.bind]
      cases s.engine.lookup key <;> rfl
  | block signs =>
    refine reports_of_attempt "Block check failed" .verdict .decision rfl .verdict ?_
    rw [answer_block, answerToSign_of_signs signs]
  | attestation signs =>
    refine reports_of_attempt "Attestation check failed" .verdict .decision rfl .verdict ?_
    rw [answer_attestation, answerToSign_of_signs signs]
  | @prune keep text key id read known =>
    refine reports_of_attempt (x := s.engine.prune keep.toNat id) "Pruning failed" .outcome
      (fun o => .pruned (.ofOutcome o)) rfl .outcome ?_
    simp only [answer, parseKey_eq_ok.mpr read, prune, resolve_eq_ok.mpr known, Except.map, bind,
      Except.bind]
    cases s.engine.prune keep.toNat id <;> rfl
  | @pruneAll keep =>
    refine reports_of_attempt (x := s.engine.pruneAll keep.toNat) "Pruning failed" .pruned .pruned
      rfl .pruned ?_
    simp only [answer, prune, pruneAll, bind, Except.bind]
    cases s.engine.pruneAll keep.toNat <;> rfl
  | @importText text =>
    refine reports_of_attempt (x := s.engine.importText (Text.Utf8.ofText text)) "Import failed"
      .imported .imported rfl .imported ?_
    simp only [answer, bind, Except.bind]
    cases s.engine.importText (Text.Utf8.ofText text) <;> rfl
  | exportText =>
    refine reports_of_attempt (x := s.engine.exportText.map fun text => (text, s.engine))
      "Export failed" .text .exported ?_ .text ?_
    · simp only [Engine.attempt]
      cases s.engine.exportText <;> rfl
    · simp only [answer, bind, Except.bind]
      cases s.engine.exportText <;> rfl

theorem asks_of_answer {r : Request} {told : Reply × Service} (answered : s.answer r = .ok told) :
    r = .ping ∨ ∃ c, r.Asks s.network s.engine c := by
  cases r with
  | ping => exact .inl rfl
  | register texts =>
    simp only [answer] at answered
    obtain ⟨keys, parsed, -⟩ := bind_eq_ok.mp answered
    exact .inr ⟨_, .register ((mapM_eq_ok.mp parsed).imp fun _ _ => parseKey_eq_ok.mp)⟩
  | lookup text =>
    simp only [answer] at answered
    obtain ⟨key, parsed, -⟩ := bind_eq_ok.mp answered
    exact .inr ⟨_, .lookup (parseKey_eq_ok.mp parsed)⟩
  | block key slot root network =>
    obtain ⟨id, r, n, signs⟩ := signs_of_answer (answer_block key root slot network ▸ answered)
    exact .inr ⟨_, .block signs⟩
  | attestation key source target root network =>
    obtain ⟨id, r, n, signs⟩ :=
      signs_of_answer (answer_attestation key root source target network ▸ answered)
    exact .inr ⟨_, .attestation signs⟩
  | prune keep text =>
    cases text with
    | none => exact .inr ⟨_, .pruneAll⟩
    | some text =>
      simp only [answer] at answered
      obtain ⟨_, parsed, answered⟩ := bind_eq_ok.mp answered
      obtain ⟨key, read, rfl⟩ := map_eq_ok.mp parsed
      obtain ⟨_, pruned, -⟩ := bind_eq_ok.mp answered
      obtain ⟨id, known, -⟩ := bind_eq_ok.mp (mapError_eq_ok.mp pruned)
      exact .inr ⟨_, .prune (parseKey_eq_ok.mp read) (resolve_eq_ok.mp known)⟩
  | importText text => exact .inr ⟨_, .importText⟩
  | exportText => exact .inr ⟨_, .exportText⟩

theorem handle_of_idle {r : Request} (idle : ∀ c, ¬ r.Asks s.network s.engine c) :
    (r = .ping ∧ s.handle r = (.pong version, s)) ∨ ∃ m, s.handle r = (.error m, s) := by
  cases answered : s.answer r with
  | error m => exact .inr ⟨m, by rw [handle, answered]⟩
  | ok told =>
    rcases asks_of_answer answered with rfl | ⟨c, asks⟩
    · exact .inl ⟨rfl, rfl⟩
    · exact False.elim (idle c asks)

theorem handle_engine (s : Service) (r : Request) :
    (s.handle r).2.network = s.network ∧
      ((∃ c, r.Asks s.network s.engine c ∧ (s.handle r).2.engine = (s.engine.call c).2) ∨
        (∀ c, ¬ r.Asks s.network s.engine c) ∧ (s.handle r).2 = s) := by
  by_cases asked : ∃ c, r.Asks s.network s.engine c
  · obtain ⟨c, asks⟩ := asked
    have told := reports_of_asks asks
    generalize s.handle r = after at told ⊢
    cases told with
    | answered called _ => exact ⟨rfl, .inl ⟨c, asks, by rw [called]⟩⟩
    | failed called => exact ⟨rfl, .inl ⟨c, asks, by rw [called]⟩⟩
  · have idle := not_exists.mp asked
    rcases handle_of_idle idle with ⟨-, same⟩ | ⟨m, same⟩ <;> rw [same] <;>
      exact ⟨rfl, .inr ⟨idle, rfl⟩⟩

theorem verdict_of_call {e e' : Engine} {id : Int} {network : Root} {record : Record} {a : Answer}
    (called : e.call (.sign id network record) = (.ok a, e')) : ∃ v, a = .verdict v := by
  rcases e.call_cases (.sign id network record) with ⟨f, fails⟩ | ⟨b, e'', attempted, ends⟩
  · cases fails.symm.trans called
  · cases ends.symm.trans called
    cases record with
    | block b =>
      obtain ⟨⟨v, _⟩, -, same⟩ := map_eq_ok.mp attempted
      exact ⟨v, (congrArg Prod.fst same).symm⟩
    | attestation a =>
      obtain ⟨⟨v, _⟩, -, same⟩ := map_eq_ok.mp attempted
      exact ⟨v, (congrArg Prod.fst same).symm⟩

theorem handle_toSign {r : Request} (sign : r.IsToSign) :
    (∃ c, r.Asks s.network s.engine c ∧
      ((∃ v, (s.engine.call c).1 = .ok (.verdict v) ∧
          s.handle r = (.decision v, { s with engine := (s.engine.call c).2 })) ∨
        ∃ f m, (s.engine.call c).1 = .error f ∧ s.handle r = (.error m, s))) ∨
      (∀ c, ¬ r.Asks s.network s.engine c) ∧ ∃ m, s.handle r = (.error m, s) := by
  by_cases asked : ∃ c, r.Asks s.network s.engine c
  · obtain ⟨c, asks⟩ := asked
    refine .inl ⟨c, asks, ?_⟩
    have told := reports_of_asks asks
    generalize s.handle r = after at told ⊢
    cases told with
    | failed called => exact .inr ⟨_, _, by rw [called], rfl⟩
    | answered called tells =>
      obtain ⟨id, network, record, rfl⟩ := asks.sign sign
      obtain ⟨v, rfl⟩ := verdict_of_call called
      cases tells
      exact .inl ⟨v, by rw [called], by rw [called]⟩
  · have idle := not_exists.mp asked
    rcases handle_of_idle idle with ⟨rfl, -⟩ | refused
    · contradiction
    · exact .inr ⟨idle, refused⟩

end Service

/-- What a list of requests does to an engine, call by call. -/
inductive Request.Performed (configured : Option Root) : Engine → List Request → Engine → Prop
  | nil {e : Engine} : Performed configured e [] e
  | call {e e' : Engine} {r : Request} {rs : List Request} {c : Call}
      (asks : r.Asks configured e c) (later : Performed configured (e.call c).2 rs e') :
      Performed configured e (r :: rs) e'
  | idle {e e' : Engine} {r : Request} {rs : List Request} (none : ∀ c, ¬ r.Asks configured e c)
      (later : Performed configured e rs e') : Performed configured e (r :: rs) e'

namespace Connection

open Text.Utf8 (encode text?_encode text?_eq_some_iff)

/-- Lines are answered in order, each on what those before it left. -/
inductive Serves : Service → List (List Char) → List Reply → Service → Prop
  | done {s : Service} : Serves s [] [] s
  | refused {s s' : Service} {text : List Char} {texts : List (List Char)} {rs : List Reply}
      {f : Json.Fault} (unread : request text = .error f) (later : Serves s texts rs s') :
      Serves s (text :: texts) (.error ("Invalid request: " ++ f.message) :: rs) s'
  | handled {s s' : Service} {text : List Char} {texts : List (List Char)} {rs : List Reply}
      {r : Request} (read : request text = .ok r) (later : Serves (s.handle r).2 texts rs s') :
      Serves s (text :: texts) ((s.handle r).1 :: rs) s'

variable {s s' : Service} {texts : List (List Char)} {rs : List Reply}

theorem Serves.length_eq (serves : Serves s texts rs s') : rs.length = texts.length := by
  induction serves with
  | done => rfl
  | refused _ _ ih => simp [ih]
  | handled _ _ ih => simp [ih]

def requests (texts : List (List Char)) : List Request :=
  texts.filterMap fun text => (request text).toOption

theorem Serves.performed (serves : Serves s texts rs s') : s'.network = s.network ∧
    Request.Performed s.network s.engine (requests texts) s'.engine := by
  induction serves with
  | done => exact ⟨rfl, .nil⟩
  | @refused s s' text texts rs f unread later ih =>
    have others : requests (text :: texts) = requests texts := by
      simp [requests, unread, Except.toOption]
    rwa [others]
  | @handled s s' text texts rs r read later ih =>
    have own : requests (text :: texts) = r :: requests texts := by
      simp [requests, read, Except.toOption]
    obtain ⟨network, step⟩ := s.handle_engine r
    rw [network] at ih
    refine ⟨ih.1, ?_⟩
    rw [own]
    rcases step with ⟨c, asks, engine⟩ | ⟨idle, same⟩
    · exact .call asks (engine ▸ ih.2)
    · rw [same] at ih
      exact .idle idle ih.2

theorem exists_texts (ls : List (List UInt8)) :
    ∃ (texts : List (List Char)) (rest : List (List UInt8)), ls = texts.map encode ++ rest ∧
      ∀ line ∈ rest.head?, ∀ text, line ≠ encode text := by
  induction ls with
  | nil => exact ⟨[], [], rfl, nofun⟩
  | cons line ls ih =>
    cases read : Text.Utf8.text? line with
    | none =>
      refine ⟨[], line :: ls, rfl, fun l own text spelt => ?_⟩
      cases own
      rw [text?_eq_some_iff.mpr spelt] at read
      contradiction
    | some text =>
      obtain ⟨texts, rest, others, broken⟩ := ih
      exact ⟨text :: texts, rest, by rw [others, text?_eq_some_iff.mp read]; rfl, broken⟩

theorem serves_replies (s : Service) (texts : List (List Char)) {rest : List (List UInt8)}
    (broken : ∀ line ∈ rest.head?, ∀ text, line ≠ encode text) :
    Serves s texts (replies s (texts.map encode ++ rest)).1
      (replies s (texts.map encode ++ rest)).2 := by
  induction texts generalizing s with
  | nil =>
    cases rest with
    | nil => exact .done
    | cons line rest =>
      cases read : Text.Utf8.text? line with
      | none =>
        simp only [List.map_nil, List.nil_append, replies, read]
        exact .done
      | some text => exact False.elim (broken line rfl text (text?_eq_some_iff.mp read))
  | cons text texts ih =>
    simp only [List.map_cons, List.cons_append, replies, text?_encode, reply]
    cases read : request text with
    | error f => exact .refused read (ih s)
    | ok r => exact .handled read (ih (s.handle r).2)

/-- A connection answers its lines up to the first that is no text, one reply a line, and does what
their requests ask, one after the other. A request asks for one call at most and is told how it
ended, and one to sign is decided by that call or refused. -/
theorem serve_folds :
    (∀ (s : Service) (bytes : List UInt8), ∃ texts rest, Splits bytes (texts.map encode ++ rest) ∧
      (∀ line ∈ rest.head?, ∀ text, line ≠ encode text) ∧
      Serves s texts (serve s bytes).1 (serve s bytes).2 ∧
      (serve s bytes).1.length = texts.length ∧
      Splits ((serve s bytes).1.flatMap fun r => sent r.toValue)
        ((serve s bytes).1.map fun r => sent r.toValue) ∧
      (serve s bytes).2.network = s.network ∧
      Request.Performed s.network s.engine (requests texts) (serve s bytes).2.engine) ∧
    (∀ (configured : Option Root) (e : Engine) (r : Request) (c c' : Call),
      r.Asks configured e c → r.Asks configured e c' → c = c') ∧
    (∀ (s : Service) (r : Request) (c : Call), r.Asks s.network s.engine c →
      s.Reports c (s.handle r)) ∧
    (∀ (s : Service) (r : Request), r.IsToSign →
      (∃ c, r.Asks s.network s.engine c ∧
        ((∃ v, (s.engine.call c).1 = .ok (.verdict v) ∧
            s.handle r = (.decision v, { s with engine := (s.engine.call c).2 })) ∨
          ∃ f m, (s.engine.call c).1 = .error f ∧ s.handle r = (.error m, s))) ∨
        (∀ c, ¬ r.Asks s.network s.engine c) ∧ ∃ m, s.handle r = (.error m, s)) := by
  refine ⟨fun s bytes => ?_, fun _ _ _ _ _ => Request.Asks.unique,
    fun _ _ _ => Service.reports_of_asks, fun _ _ => Service.handle_toSign⟩
  obtain ⟨texts, rest, split, broken⟩ := exists_texts (lines bytes)
  have serves := serves_replies s texts broken
  rw [← split] at serves
  have replies := lines_sents ((serve s bytes).1.map Reply.toValue)
  rw [List.flatMap_map, List.map_map] at replies
  exact ⟨texts, rest, splits_iff.mpr split, broken, serves, serves.length_eq,
    splits_iff.mpr replies, serves.performed⟩

theorem serve_folds_configured :
    let s : Service := ⟨Engine.fresh.run [.register [.single 1]], some (.filled 0)⟩
    (∃ texts rest, Splits [123, 10, 255] (texts.map encode ++ rest) ∧ texts.length = 1 ∧
      ∃ m, Serves s texts [.error ("Invalid request: " ++ m)] s) ∧
    s.Reports (.maySignBlock 1 ⟨⟨5⟩, .filled 1⟩ (.filled 0))
      (s.handle (.block (PublicKey.single 1).toHex 5 (Root.filled 1).toHex none)) := by
  intro s
  obtain ⟨folds, -, reports, -⟩ := serve_folds
  obtain ⟨texts, rest, split, -, serves, count, -⟩ := folds s [123, 10, 255]
  have signs : Request.Signs s.network s.engine (PublicKey.single 1).toHex (Root.filled 1).toHex
      none 1 (.filled 1) (.filled 0) :=
    ⟨⟨_, PublicKey.ofHex_toHex _, rfl⟩, Root.ofHex_toHex _ _, rfl⟩
  exact ⟨⟨texts, rest, split, count.symm, _, serves⟩, reports s _ _ (.block signs)⟩

end Connection

end SlashGuard
