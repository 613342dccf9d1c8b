import DomSelect.Proofs.Selector.Compiling
import DomSelect.Proofs.Selector.Tiling
import DomSelect.Session

/-!
# Every schedule gives the same chain

A producer and a receiver that share a queue may act in any order. `Runs` are the orders in which
they do: the tokens taken, those in the queue and those not yet sent are always all tokens of the
selector (`Runs.conserves`). With a compiler as the receiver no send fails and nobody waits for
ever, and the outcome is that of compiling the tokens one after the other
(`compilePiped_under_every_schedule`).
-/

namespace DomSelect

namespace Pipeline

variable {selector : String} {pipeline after : Pipeline} {event : Event} {events : List Event}
  {may : Pipeline → Event → Bool}

/-! ## Definitions -/

/-- The tokens that the producer has not sent. -/
def unsent (pipeline : Pipeline) : List Token :=
  match pipeline.producer with
  | none => []
  | some scanner => scanner.tokens Unicode.isAlphanumeric

/-- What each event needs and does. -/
inductive Happens : Event → Pipeline → Pipeline → Prop
  /-- The next token goes to the end of the queue. -/
  | sends {pipeline : Pipeline} {token : Token} {scanner : Scanner}
      (hp : pipeline.pending? = some (token, scanner)) (hl : pipeline.listening = true) :
      Happens .send pipeline
        { pipeline with producer := some scanner, queue := pipeline.queue ++ [token] }
  /-- The receiver has left, which stops the producer. -/
  | fails {pipeline : Pipeline} {token : Token} {scanner : Scanner}
      (hp : pipeline.pending? = some (token, scanner)) (hl : pipeline.listening = false) :
      Happens .send pipeline { pipeline with producer := none }
  /-- The producer is done. -/
  | stops {pipeline : Pipeline} (hs : pipeline.producer.isSome = true)
      (hp : pipeline.pending? = none) : Happens .stop pipeline { pipeline with producer := none }
  /-- The receiver takes the oldest token of the queue. -/
  | receives {pipeline : Pipeline} {token : Token} {later : List Token}
      (hq : pipeline.queue = token :: later) (hl : pipeline.listening = true) :
      Happens .receive pipeline
        { pipeline with queue := later, taken := token :: pipeline.taken }
  /-- The receiver leaves. -/
  | leaves {pipeline : Pipeline} (hl : pipeline.listening = true) :
      Happens .leave pipeline { pipeline with listening := false }

/-- `Runs may start events now`: the events lead from `start` to `now`, each of them possible and
allowed by `may` when it happens. -/
inductive Runs (may : Pipeline → Event → Bool) (start : Pipeline) : List Event → Pipeline → Prop
  | start : Runs may start [] start
  | step {events : List Event} {event : Event} {now after : Pipeline}
      (h : Runs may start events now) (hm : may now event = true)
      (hp : now.perform? event = some after) : Runs may start (events ++ [event]) after

/-- What a pipeline does whose receiver is a compiler: it takes tokens as long as it needs them, and
leaves when it needs no more. -/
def mayWithCompiler (pipeline : Pipeline) : Event → Bool
  | .receive => !pipeline.isCompiled
  | .leave => pipeline.isCompiled
  | .send | .stop => true

/-! ## One event -/

theorem perform?_eq_some_iff :
    pipeline.perform? event = some after ↔ Happens event pipeline after := by
  constructor
  · intro h
    obtain ⟨producer, queue, taken, listening⟩ := pipeline
    cases event with
    | send =>
      obtain ⟨⟨token, scanner⟩, hp, hafter⟩ := Option.map_eq_some_iff.mp h
      subst hafter
      cases listening with
      | true => exact .sends hp rfl
      | false => exact .fails hp rfl
    | stop =>
      obtain ⟨hboth, hafter⟩ := Option.ite_none_right_eq_some.mp h
      obtain ⟨hs, hp⟩ := (Bool.and_eq_true ..).mp hboth
      cases hafter
      exact .stops hs (Option.isNone_iff_eq_none.mp hp)
    | receive =>
      cases queue with
      | nil => cases h
      | cons token later =>
        obtain ⟨hl, hafter⟩ := Option.ite_none_right_eq_some.mp h
        cases hafter
        exact .receives rfl hl
    | leave =>
      obtain ⟨hl, hafter⟩ := Option.ite_none_right_eq_some.mp h
      cases hafter
      exact .leaves hl
  · intro h
    cases h with
    | sends hp hl => simp [perform?, hp, hl]
    | fails hp hl => simp [perform?, hp, hl]
    | stops hs hp => simp [perform?, hs, hp]
    | receives hq hl => simp [perform?, hq, hl]
    | leaves hl => simp [perform?, hl]

/-! ## The producer -/

/-- The scanner of the producer is at a mark where its state says so. -/
def ProducerReady (pipeline : Pipeline) : Prop :=
  ∀ scanner, pipeline.producer = some scanner → scanner.Ready

/-- The token to be sent next is the first one not sent, and without one nothing is left. -/
theorem unsent_of_pending? (hr : pipeline.ProducerReady) {token : Token} {scanner : Scanner}
    (hp : pipeline.pending? = some (token, scanner)) :
    scanner.Ready ∧ pipeline.unsent = token :: scanner.tokens Unicode.isAlphanumeric := by
  obtain ⟨now, hnow, hnext⟩ := Option.bind_eq_some_iff.mp hp
  have hready := hr now hnow
  refine ⟨(Scanner.need_next? hready hnext).1, ?_⟩
  rw [unsent, hnow]
  exact Scanner.tokens_of_next? hready hnext

theorem unsent_of_pending?_eq_none (hp : pipeline.pending? = none) : pipeline.unsent = [] := by
  unfold unsent
  split
  · rfl
  · next scanner hs =>
    rw [pending?, hs] at hp
    exact Scanner.tokens_of_next?_eq_none hp

/-! ## Any receiver -/

/-- The tokens of the selector are in three places, as long as there is a receiver; what the
receiver has taken are the first of them in any case. -/
structure Conserves (selector : String) (pipeline : Pipeline) : Prop where
  ready : pipeline.ProducerReady
  listening : pipeline.listening = true →
    pipeline.received ++ pipeline.queue ++ pipeline.unsent = tokenize selector
  received : pipeline.received <+: tokenize selector

theorem conserves_ofSelector (selector : String) : (ofSelector selector).Conserves selector where
  ready _ hs := by
    cases hs
    trivial
  listening _ := rfl
  received := List.nil_prefix

theorem received_cons (pipeline : Pipeline) (token : Token) (later : List Token) :
    received { pipeline with queue := later, taken := token :: pipeline.taken } =
      pipeline.received ++ [token] := by
  unfold received
  rw [List.reverse_cons]

theorem Conserves.happens (hc : pipeline.Conserves selector) (h : Happens event pipeline after) :
    after.Conserves selector := by
  cases h with
  | @sends pipeline token scanner hp hl =>
    obtain ⟨hready, hunsent⟩ := unsent_of_pending? hc.ready hp
    refine ⟨fun _ hs => by cases hs; exact hready, fun _ => ?_, hc.received⟩
    calc pipeline.received ++ (pipeline.queue ++ [token]) ++ scanner.tokens Unicode.isAlphanumeric
        = pipeline.received ++ pipeline.queue ++ pipeline.unsent := by rw [hunsent]; simp
      _ = tokenize selector := hc.listening hl
  | fails hp hl =>
    refine ⟨nofun, fun ht => ?_, hc.received⟩
    rw [hl] at ht
    cases ht
  | stops hs hp =>
    refine ⟨nofun, fun hl => ?_, hc.received⟩
    rw [← hc.listening hl, unsent_of_pending?_eq_none hp]
    rfl
  | @receives pipeline token later hq hl =>
    have hall := hc.listening hl
    rw [hq, List.append_cons] at hall
    refine ⟨hc.ready, fun _ => ?_, ?_⟩
    · rw [received_cons]
      exact hall
    · rw [received_cons, ← hall, List.append_assoc _ later]
      exact List.prefix_append ..
  | leaves hl => exact ⟨hc.ready, nofun, hc.received⟩

/-- The tokens taken are as many as there were receipts. -/
theorem Happens.length_received (h : Happens event pipeline after) :
    after.received.length = pipeline.received.length + [event].count .receive := by
  cases h with
  | receives hq hl => rw [received_cons, List.length_append]; rfl
  | sends | fails | stops | leaves => rfl

namespace Runs

theorem conserves (h : Runs may (ofSelector selector) events pipeline) :
    pipeline.Conserves selector := by
  induction h with
  | start => exact conserves_ofSelector selector
  | step _ _ hp ih => exact ih.happens (perform?_eq_some_iff.mp hp)

theorem received_eq_take (h : Runs may (ofSelector selector) events pipeline) :
    pipeline.received = (tokenize selector).take (events.count .receive) := by
  have hlen : pipeline.received.length = events.count .receive := by
    induction h with
    | start => rfl
    | step _ _ hp ih =>
      rw [(perform?_eq_some_iff.mp hp).length_received, ih, List.count_append]
  rw [← hlen]
  exact List.prefix_iff_eq_take.mp h.conserves.received

end Runs

/-! ## The end of a compilation -/

theorem isFinished_foldl_receive (terms : List Term) (tokens : List Token) :
    (tokens.foldl Compilation.receive (.building terms)).isFinished =
      tokens.any Token.isTerminal := by
  induction tokens generalizing terms with
  | nil => rfl
  | cons token tokens ih =>
    rw [List.foldl_cons, List.any_cons]
    obtain ⟨kind, text, position⟩ := token
    cases kind with
    | endOfInput | error =>
      exact congrArg Compilation.isFinished (Compilation.foldl_receive_finished _ _)
    | elementName | wildcard | wildcardShorthand | classPrefix | className | idPrefix | id =>
      exact ih _

/-- Some of the first tokens of a selector are all of them if one is terminal. -/
theorem eq_tokenize_of_terminal {tokens : List Token} (hp : tokens <+: tokenize selector)
    (ht : tokens.any Token.isTerminal = true) : tokens = tokenize selector := by
  obtain ⟨front, last, _, _, hall, _, hfront, _⟩ := (tiled_tokenize selector).exists_last
  rw [hall] at hp ⊢
  rcases List.prefix_concat_iff.mp hp with heq | hfewer
  · rw [heq]
  · obtain ⟨token, hm, hterminal⟩ := List.any_eq_true.mp ht
    rw [hfront token (hfewer.subset hm)] at hterminal
    cases hterminal

theorem any_isTerminal_tokenize (selector : String) :
    (tokenize selector).any Token.isTerminal = true := by
  obtain ⟨front, last, _, _, hall, hlast, _⟩ := (tiled_tokenize selector).exists_last
  rw [hall, List.any_append, List.any_cons, hlast, Bool.true_or, Bool.or_true]

/-- A compiler needs no more tokens exactly if it has taken all of them. -/
theorem Conserves.isCompiled_iff (hc : pipeline.Conserves selector) :
    pipeline.isCompiled = true ↔ pipeline.received = tokenize selector := by
  have hfinished : pipeline.compilation.isFinished = pipeline.received.any Token.isTerminal :=
    isFinished_foldl_receive [] _
  rw [isCompiled, Bool.or_eq_true, hfinished]
  constructor
  · rintro (hterminal | hclosed)
    · exact eq_tokenize_of_terminal hc.received hterminal
    · simp only [isClosed, Bool.and_eq_true, List.isEmpty_iff, Option.isNone_iff_eq_none] at hclosed
      obtain ⟨⟨hl, hqueue⟩, hproducer⟩ := hclosed
      have hall := hc.listening hl
      rwa [hqueue, unsent, hproducer, List.append_nil, List.append_nil] at hall
  · intro h
    rw [h]
    exact .inl (any_isTerminal_tokenize selector)

/-! ## A compiler as receiver -/

/-- A compiler that has left has taken everything, and nothing is left to send. -/
structure Attended (selector : String) (pipeline : Pipeline) : Prop where
  conserves : pipeline.Conserves selector
  left : pipeline.listening = false →
    pipeline.received = tokenize selector ∧ pipeline.unsent = []

theorem Attended.happens (ha : pipeline.Attended selector)
    (hm : pipeline.mayWithCompiler event = true) (h : Happens event pipeline after) :
    after.Attended selector := by
  refine ⟨ha.conserves.happens h, fun hf => ?_⟩
  cases h with
  | sends hp hl =>
    rw [hl] at hf
    cases hf
  | fails hp hl => exact ⟨(ha.left hl).1, rfl⟩
  | stops hs hp => exact ⟨(ha.left hf).1, rfl⟩
  | receives hq hl =>
    rw [hl] at hf
    cases hf
  | leaves hl =>
    have hall := ha.conserves.isCompiled_iff.mp hm
    have hsum := ha.conserves.listening hl
    rw [hall, List.append_assoc, List.append_right_eq_self] at hsum
    exact ⟨hall, (List.append_eq_nil_iff.mp hsum).2⟩

/-- A bound on the events to come. -/
def weight (pipeline : Pipeline) : Nat :=
  2 * pipeline.unsent.length + pipeline.queue.length + pipeline.producer.toList.length +
    pipeline.listening.toNat

theorem length_producer (hs : pipeline.producer.isSome = true) :
    pipeline.producer.toList.length = 1 := by
  obtain ⟨scanner, hs⟩ := Option.isSome_iff_exists.mp hs
  rw [hs]
  rfl

theorem isSome_producer {pair : Token × Scanner} (hp : pipeline.pending? = some pair) :
    pipeline.producer.isSome = true := by
  obtain ⟨scanner, hs, _⟩ := Option.bind_eq_some_iff.mp hp
  rw [hs]
  rfl

theorem Happens.weight_lt (hr : pipeline.ProducerReady) (h : Happens event pipeline after) :
    after.weight < pipeline.weight := by
  cases h with
  | @sends pipeline token scanner hp hl =>
    have hproducer := length_producer (isSome_producer hp)
    have hunsent := congrArg List.length (unsent_of_pending? hr hp).2
    rw [List.length_cons] at hunsent
    show 2 * (scanner.tokens Unicode.isAlphanumeric).length + (pipeline.queue ++ [token]).length +
      1 + pipeline.listening.toNat < pipeline.weight
    rw [weight, hproducer, hunsent, List.length_append, List.length_singleton]
    omega
  | fails hp hl =>
    have hproducer := length_producer (isSome_producer hp)
    show 2 * 0 + pipeline.queue.length + 0 + pipeline.listening.toNat < pipeline.weight
    rw [weight, hproducer]
    omega
  | stops hs hp =>
    have hproducer := length_producer hs
    show 2 * 0 + pipeline.queue.length + 0 + pipeline.listening.toNat < pipeline.weight
    rw [weight, hproducer]
    omega
  | @receives pipeline token later hq hl =>
    show 2 * pipeline.unsent.length + later.length + pipeline.producer.toList.length +
      pipeline.listening.toNat < pipeline.weight
    rw [weight, hq, List.length_cons]
    omega
  | leaves hl =>
    show 2 * pipeline.unsent.length + pipeline.queue.length + pipeline.producer.toList.length + 0 <
      pipeline.weight
    rw [weight, hl, Bool.toNat_true]
    omega

theorem weight_ofSelector (selector : String) :
    (ofSelector selector).weight = 2 * (tokenize selector).length + 2 := rfl

/-- As long as a compiler needs tokens, something else than its leaving can happen. -/
theorem Attended.exists_happens (ha : pipeline.Attended selector)
    (hc : pipeline.isCompiled = false) :
    ∃ event after, event ≠ .leave ∧ pipeline.mayWithCompiler event = true ∧
      pipeline.perform? event = some after := by
  have hl : pipeline.listening = true := by
    rw [← Bool.not_eq_false]
    intro hf
    rw [ha.conserves.isCompiled_iff.mpr (ha.left hf).1] at hc
    cases hc
  cases hq : pipeline.queue with
  | cons token later =>
    exact ⟨.receive, _, nofun, by rw [mayWithCompiler, hc]; rfl,
      perform?_eq_some_iff.mpr (.receives hq hl)⟩
  | nil =>
    cases hp : pipeline.pending? with
    | some pair => exact ⟨.send, _, nofun, rfl, perform?_eq_some_iff.mpr (.sends hp hl)⟩
    | none =>
      -- with an empty queue and no producer the compiler would be done
      have hs : pipeline.producer.isSome = true := by
        have hopen := ((Bool.or_eq_false_iff ..).mp hc).2
        rw [isClosed, hl, hq] at hopen
        rw [← Option.not_isNone]
        exact congrArg not hopen
      exact ⟨.stop, _, nofun, rfl, perform?_eq_some_iff.mpr (.stops hs hp)⟩

namespace Runs

theorem attended (h : Runs mayWithCompiler (ofSelector selector) events pipeline) :
    pipeline.Attended selector := by
  induction h with
  | start => exact ⟨conserves_ofSelector selector, nofun⟩
  | step _ hm hp ih => exact ih.happens hm (perform?_eq_some_iff.mp hp)

/-- Each event takes from the weight, so all runs are short. -/
theorem length_add_weight_le (h : Runs may (ofSelector selector) events pipeline) :
    events.length + pipeline.weight ≤ 2 * (tokenize selector).length + 2 := by
  induction h with
  | start => exact Nat.le_of_eq (by rw [weight_ofSelector, List.length_nil, Nat.zero_add])
  | step h _ hp ih =>
    have hless := (perform?_eq_some_iff.mp hp).weight_lt h.conserves.ready
    rw [List.length_append, List.length_singleton]
    omega

end Runs

/-! ## Taking turns -/

/-- Nothing is in the queue, and the receiver is there. -/
structure Idle (pipeline : Pipeline) : Prop where
  ready : pipeline.ProducerReady
  queue : pipeline.queue = []
  listening : pipeline.listening = true

/-- In one turn the next token, if there is one, passes through the queue. -/
theorem Idle.run_turn (h : pipeline.Idle) :
    (pipeline.run [.send, .receive]).Idle ∧
      (pipeline.run [.send, .receive]).received = pipeline.received ++ pipeline.unsent.take 1 ∧
      (pipeline.run [.send, .receive]).unsent = pipeline.unsent.drop 1 := by
  cases hp : pipeline.pending? with
  | none =>
    have hrun : pipeline.run [.send, .receive] = pipeline := by
      simp [run, perform?, hp, h.queue]
    rw [hrun, unsent_of_pending?_eq_none hp]
    exact ⟨h, (List.append_nil _).symm, rfl⟩
  | some pair =>
    obtain ⟨token, scanner⟩ := pair
    obtain ⟨hready, hunsent⟩ := unsent_of_pending? h.ready hp
    have hrun : pipeline.run [.send, .receive] =
        { pipeline with producer := some scanner, queue := [], taken := token :: pipeline.taken } := by
      simp [run, perform?, hp, h.queue, h.listening]
    rw [hrun, hunsent]
    exact ⟨⟨fun _ hs => by cases hs; exact hready, rfl, h.listening⟩,
      received_cons { pipeline with producer := some scanner } token [], rfl⟩

theorem Idle.run_turns (h : pipeline.Idle) (count : Nat) :
    (pipeline.run (List.replicate count [.send, .receive]).flatten).received =
      pipeline.received ++ pipeline.unsent.take count := by
  induction count generalizing pipeline with
  | zero => exact (List.append_nil _).symm
  | succ count ih =>
    obtain ⟨hidle, hreceived, hunsent⟩ := h.run_turn
    have hrun : pipeline.run (List.replicate (count + 1) [.send, .receive]).flatten =
        (pipeline.run [.send, .receive]).run (List.replicate count [.send, .receive]).flatten := rfl
    rw [hrun, ih hidle, hreceived, hunsent, List.append_assoc, Nat.add_comm count, List.take_add]

/-- A receiver that never leaves takes all tokens. -/
theorem received_complete (selector : String) :
    (complete selector).received = tokenize selector := by
  have hstop : ∀ now : Pipeline, (now.run [.stop]).received = now.received := by
    intro now
    rw [run, List.foldl_cons, List.foldl_nil]
    cases h : now.perform? .stop with
    | none => rfl
    | some after =>
      cases perform?_eq_some_iff.mp h
      rfl
  have hidle : (ofSelector selector).Idle := ⟨(conserves_ofSelector selector).ready, rfl, rfl⟩
  have hrun : complete selector = ((ofSelector selector).run
      (List.replicate (2 * selector.length + 1) [.send, .receive]).flatten).run [.stop] :=
    List.foldl_append
  rw [hrun, hstop, hidle.run_turns]
  exact List.take_of_length_le (Scanner.length_tokenize_le selector)

end Pipeline

theorem compilePiped_eq (selector : String) :
    compilePiped selector = compileSelector selector := by
  rw [compilePiped, Pipeline.compilation, Pipeline.received_complete]
  rfl

open Pipeline in
/-- **Every schedule gives the same chain.** Whoever receives the tokens and in whatever order
things happen, all tokens of the selector are taken, queued or still to be sent while there is a
receiver, and those taken are the first ones. If the receiver is a compiler, every run is short and
can go on until the compiler is done; no send finds that it has left; when it is done it has taken
the terminal token and has the outcome of compiling the tokens in a row. Reading a selector this way
answers and prints the same as reading it directly. -/
theorem compilePiped_under_every_schedule (selector : String) :
    (∀ may events pipeline, Runs may (ofSelector selector) events pipeline →
      (pipeline.listening = true →
        pipeline.received ++ pipeline.queue ++ pipeline.unsent = tokenize selector) ∧
      pipeline.received = (tokenize selector).take (events.count .receive)) ∧
    (∀ events pipeline, Runs mayWithCompiler (ofSelector selector) events pipeline →
      events.length ≤ 2 * (tokenize selector).length + 2 ∧
      (pipeline.isCompiled = false → ∃ event after, event ≠ .leave ∧
        pipeline.mayWithCompiler event = true ∧ pipeline.perform? event = some after) ∧
      (pipeline.pending?.isSome = true → pipeline.listening = true) ∧
      (pipeline.isCompiled = true → (∃ token ∈ pipeline.received, token.isTerminal = true) ∧
        pipeline.compilation.outcome = compileTokens (tokenize selector))) ∧
    compilePiped selector = compileSelector selector ∧
    ∀ byNumber log, Session.performWith byNumber log (.compilePiped selector) =
      Session.performWith byNumber log (.compile selector) := by
  refine ⟨fun may events pipeline h => ⟨h.conserves.listening, h.received_eq_take⟩,
    fun events pipeline h => ?_, compilePiped_eq selector, fun byNumber log => ?_⟩
  · have ha := h.attended
    refine ⟨?_, ha.exists_happens, fun hp => ?_, fun hc => ?_⟩
    · have := h.length_add_weight_le
      omega
    · obtain ⟨⟨token, scanner⟩, hp⟩ := Option.isSome_iff_exists.mp hp
      rw [← Bool.not_eq_false]
      intro hl
      have hunsent := (unsent_of_pending? ha.conserves.ready hp).2
      rw [(ha.left hl).2] at hunsent
      cases hunsent
    · have hall := ha.conserves.isCompiled_iff.mp hc
      rw [compilation, hall]
      exact ⟨List.any_eq_true.mp (any_isTerminal_tokenize selector), rfl⟩
  · rw [Session.performWith, Session.performWith, compilePiped_eq]

open Pipeline in
/-- The producer of `p` is gone before the compiler takes the last token. -/
theorem compilePiped_under_every_schedule_early_stop :
    ∃ pipeline, Runs mayWithCompiler (ofSelector "p")
        [.send, .receive, .send, .stop, .receive, .leave] pipeline ∧
      pipeline.isCompiled = true ∧ (∃ token ∈ pipeline.received, token.isTerminal = true) ∧
      pipeline.compilation.outcome = compileTokens (tokenize "p") := by
  have h : Runs mayWithCompiler (ofSelector "p")
      [.send, .receive, .send, .stop, .receive, .leave]
      ⟨none, [], [⟨.endOfInput, "", 1⟩, ⟨.elementName, "p", 0⟩], false⟩ := by
    have h1 := @Runs.step mayWithCompiler (ofSelector "p") [] .send _ _ .start rfl rfl
    have h2 := @Runs.step _ _ _ .receive _ _ h1 rfl rfl
    have h3 := @Runs.step _ _ _ .send _ _ h2 rfl rfl
    have h4 := @Runs.step _ _ _ .stop _ _ h3 rfl rfl
    have h5 := @Runs.step _ _ _ .receive _ _ h4 rfl rfl
    exact @Runs.step _ _ _ .leave _ _ h5 rfl rfl
  exact ⟨_, h, rfl, ((compilePiped_under_every_schedule "p").2.1 _ _ h).2.2.2 rfl⟩

end DomSelect
