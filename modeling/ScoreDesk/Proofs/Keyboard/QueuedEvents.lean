import Mathlib
import ScoreDesk.Proofs.Keyboard.SessionNotes

namespace ScoreDesk.Keyboard

/-- The events that a session waits for: those that have come and are not taken yet, whether more
    can come, and whether the session is cancelled. -/
structure Channel where
  queue : List KeyEvent
  isClosed : Bool
  isCancelled : Bool

/-- An event is sent, the channel closes, the session is cancelled; or the session looks what it can
    go on with. Where it can do more than one thing it is left to chance whether it minds the
    cancellation first. -/
inductive Happening where
  | sent (event : KeyEvent)
  | closed
  | cancelled
  | look (cancellationFirst : Bool)

def Happening.isLook : Happening → Bool
  | look _ => true
  | _ => false

def sentUntilClosed : List Happening → List KeyEvent
  | [] => []
  | .sent event :: rest => event :: sentUntilClosed rest
  | .closed :: _ => []
  | _ :: rest => sentUntilClosed rest

namespace Channel

open Session (Wake)

def undergo (c : Channel) : Happening → Channel
  | .sent event => if c.isClosed then c else { c with queue := c.queue ++ [event] }
  | .closed => { c with isClosed := true }
  | .cancelled => { c with isCancelled := true }
  | .look _ => c

def look (c : Channel) (cancellationFirst : Bool) : Option Wake × Channel :=
  if cancellationFirst && c.isCancelled then (some .cancelled, c)
  else match c.queue with
    | event :: rest => (some (.event event), { c with queue := rest })
    | [] =>
      if c.isClosed then (some .closed, c)
      else if c.isCancelled then (some .cancelled, c)
      else (none, c)

/-- What a session finds each time that it looks, until it stops, and what the channel is in the
    end. -/
def listen (c : Channel) : List Happening → List Wake × Channel
  | [] => ([], c)
  | .look cancellationFirst :: rest =>
    match c.look cancellationFirst with
    | (none, c) => c.listen rest
    | (some (.event event), c) => (.event event :: (c.listen rest).1, (c.listen rest).2)
    | (some stop, c) => ([stop], rest.foldl undergo c)
  | happening :: rest => (c.undergo happening).listen rest

def outlook (c : Channel) (happenings : List Happening) : List KeyEvent :=
  c.queue ++ if c.isClosed then [] else sentUntilClosed happenings

variable {c : Channel}

theorem outlook_undergo (c : Channel) (happening : Happening) (rest : List Happening) :
    (c.undergo happening).outlook rest = c.outlook (happening :: rest) := by
  unfold outlook
  cases happening with
  | sent event =>
    unfold undergo
    cases closed : c.isClosed <;> simp [sentUntilClosed, closed]
  | _ => cases closed : c.isClosed <;> simp [undergo, sentUntilClosed, closed]

theorem isClosed_undergo (happening : Happening) (closed : c.isClosed = true) :
    (c.undergo happening).isClosed = true := by
  cases happening <;> simp [undergo, closed]

theorem isCancelled_undergo (happening : Happening) (cancelled : c.isCancelled = true) :
    (c.undergo happening).isCancelled = true := by
  cases happening with
  | sent event =>
    unfold undergo
    dsimp only
    split <;> exact cancelled
  | cancelled => rfl
  | _ => exact cancelled

theorem isClosed_foldl_undergo (happenings : List Happening) (closed : c.isClosed = true) :
    (happenings.foldl undergo c).isClosed = true := by
  induction happenings generalizing c with
  | nil => exact closed
  | cons happening rest ih => exact ih (isClosed_undergo happening closed)

theorem isCancelled_foldl_undergo (happenings : List Happening) (cancelled : c.isCancelled = true) :
    (happenings.foldl undergo c).isCancelled = true := by
  induction happenings generalizing c with
  | nil => exact cancelled
  | cons happening rest ih => exact ih (isCancelled_undergo happening cancelled)

theorem queue_foldl_undergo (c : Channel) (happenings : List Happening) :
    (happenings.foldl undergo c).queue = c.outlook happenings := by
  induction happenings generalizing c with
  | nil => simp [outlook, sentUntilClosed]
  | cons happening rest ih => rw [List.foldl_cons, ih, outlook_undergo]

theorem look_cases (c : Channel) (cancellationFirst : Bool) :
    (c.look cancellationFirst = (none, c) ∧ c.isClosed = false ∧
      (cancellationFirst && c.isCancelled) = false) ∨
    (∃ event rest, c.queue = event :: rest ∧
      (cancellationFirst && c.isCancelled) = false ∧
      c.look cancellationFirst = (some (.event event), { c with queue := rest })) ∨
    (c.look cancellationFirst = (some .closed, c) ∧ c.queue = [] ∧ c.isClosed = true) ∨
    (c.look cancellationFirst = (some .cancelled, c) ∧ c.isCancelled = true) := by
  unfold look
  by_cases first : (cancellationFirst && c.isCancelled) = true
  · rw [if_pos first]
    exact .inr (.inr (.inr ⟨rfl, (Bool.and_eq_true_iff.mp first).2⟩))
  · rw [if_neg first]
    rw [Bool.not_eq_true] at first
    cases queue : c.queue with
    | cons event rest => exact .inr (.inl ⟨event, rest, rfl, first, rfl⟩)
    | nil =>
      cases closed : c.isClosed with
      | true => exact .inr (.inr (.inl ⟨rfl, rfl, rfl⟩))
      | false =>
        cases cancelled : c.isCancelled with
        | true => exact .inr (.inr (.inr ⟨rfl, rfl⟩))
        | false => exact .inl ⟨rfl, rfl, by rwa [cancelled] at first⟩

end Channel

def Stopped (wakes : List Session.Wake) : Prop :=
  .closed ∈ wakes ∨ .cancelled ∈ wakes

namespace Channel

variable {c : Channel}

/-- What a session finds is the first of the events, in their order, and how it stops if it does:
    when the channel is closed and no event is left, or when it is cancelled. -/
theorem listen_spec (c : Channel) (happenings : List Happening) :
    ∃ handled ending, (c.listen happenings).1 = handled.map .event ++ ending ∧
      c.outlook happenings = handled ++ (c.listen happenings).2.queue ∧
      (ending = [] ∨
        (ending = [.closed] ∧ (c.listen happenings).2.isClosed = true ∧
          (c.listen happenings).2.queue = []) ∨
        (ending = [.cancelled] ∧ (c.listen happenings).2.isCancelled = true)) := by
  induction happenings generalizing c with
  | nil => exact ⟨[], [], rfl, by simp [outlook, sentUntilClosed, listen], .inl rfl⟩
  | cons happening rest ih =>
    cases happening with
    | look cancellationFirst =>
      rw [← outlook_undergo]
      change ∃ handled ending, _ ∧ c.outlook rest = _ ∧ _
      rcases c.look_cases cancellationFirst with ⟨looked, -⟩ | ⟨event, more, queue, -, looked⟩ |
        ⟨looked, queue, closed⟩ | ⟨looked, cancelled⟩
      · simp only [listen, looked]
        exact ih c
      · simp only [listen, looked]
        obtain ⟨handled, ending, wakes, taken, stops⟩ := ih { c with queue := more }
        refine ⟨event :: handled, ending, ?_, ?_, stops⟩
        · rw [wakes, List.map_cons, List.cons_append]
        · rw [List.cons_append, ← taken, outlook, outlook, queue, List.cons_append]
      · simp only [listen, looked]
        have left := queue_foldl_undergo c rest
        have nothing : c.outlook rest = [] := by simp [outlook, queue, closed]
        exact ⟨[], [.closed], rfl, left.symm, .inr (.inl ⟨rfl,
          isClosed_foldl_undergo rest closed, left.trans nothing⟩)⟩
      · simp only [listen, looked]
        exact ⟨[], [.cancelled], rfl, (queue_foldl_undergo c rest).symm, .inr (.inr ⟨rfl,
          isCancelled_foldl_undergo rest cancelled⟩)⟩
    | _ =>
      obtain ⟨handled, ending, wakes, taken, stops⟩ := ih (c.undergo _)
      exact ⟨handled, ending, wakes, (outlook_undergo _ _ _).symm.trans taken, stops⟩

theorem listen_append (c : Channel) (before after : List Happening) :
    Stopped (c.listen before).1 ∧ (c.listen (before ++ after)).1 = (c.listen before).1 ∨
      (c.listen (before ++ after)).1 =
        (c.listen before).1 ++ ((c.listen before).2.listen after).1 := by
  induction before generalizing c with
  | nil => exact .inr rfl
  | cons happening rest ih =>
    cases happening with
    | look cancellationFirst =>
      rcases c.look_cases cancellationFirst with ⟨looked, -⟩ | ⟨event, more, -, -, looked⟩ |
        ⟨looked, -, -⟩ | ⟨looked, -⟩
      · simp only [List.cons_append, listen, looked]
        exact ih c
      · simp only [List.cons_append, listen, looked]
        rcases ih { c with queue := more } with ⟨stopped, same⟩ | later
        · exact .inl ⟨stopped.imp (List.mem_cons_of_mem _) (List.mem_cons_of_mem _), by rw [same]⟩
        · exact .inr (by rw [later])
      · simp only [List.cons_append, listen, looked]
        exact .inl ⟨.inl List.mem_cons_self, trivial⟩
      · simp only [List.cons_append, listen, looked]
        exact .inl ⟨.inr List.mem_cons_self, trivial⟩
    | _ => exact ih (c.undergo _)

theorem stopped_of_later (c : Channel) (before : List Happening) {after : List Happening}
    (later : Stopped ((c.listen before).2.listen after).1) :
    Stopped (c.listen (before ++ after)).1 := by
  rcases c.listen_append before after with ⟨stopped, same⟩ | whole
  · rwa [same]
  · rw [whole]
    exact later.imp (List.mem_append_right _) (List.mem_append_right _)

theorem stopped_of_closed {happenings : List Happening} (closed : c.isClosed = true)
    (looks : c.queue.length < happenings.countP Happening.isLook) :
    Stopped (c.listen happenings).1 := by
  induction happenings generalizing c with
  | nil => cases looks
  | cons happening rest ih =>
    cases happening with
    | look cancellationFirst =>
      rcases c.look_cases cancellationFirst with ⟨-, still, -⟩ | ⟨event, more, queue, -, looked⟩ |
        ⟨looked, -, -⟩ | ⟨looked, -⟩
      · rw [closed] at still
        cases still
      · simp only [listen, looked]
        have fewer : more.length < rest.countP Happening.isLook := by
          rw [queue, List.length_cons, List.countP_cons_of_pos rfl] at looks
          omega
        exact (ih (c := { c with queue := more }) closed fewer).imp (List.mem_cons_of_mem _)
          (List.mem_cons_of_mem _)
      · simp only [listen, looked]
        exact .inl List.mem_cons_self
      · simp only [listen, looked]
        exact .inr List.mem_cons_self
    | sent event =>
      rw [List.countP_cons_of_neg (by simp [Happening.isLook])] at looks
      have same : c.undergo (.sent event) = c := if_pos closed
      simp only [listen, same]
      exact ih closed looks
    | closed =>
      rw [List.countP_cons_of_neg (by simp [Happening.isLook])] at looks
      exact ih (c := c.undergo .closed) rfl looks
    | cancelled =>
      rw [List.countP_cons_of_neg (by simp [Happening.isLook])] at looks
      exact ih (c := c.undergo .cancelled) closed looks

theorem stopped_of_cancelled {happenings : List Happening} (cancelled : c.isCancelled = true)
    (minds : .look true ∈ happenings) : Stopped (c.listen happenings).1 := by
  induction happenings generalizing c with
  | nil => cases minds
  | cons happening rest ih =>
    cases happening with
    | look cancellationFirst =>
      have later (unminded : (cancellationFirst && c.isCancelled) = false) :
          .look true ∈ rest := by
        rw [cancelled, Bool.and_true] at unminded
        simpa [unminded] using minds
      rcases c.look_cases cancellationFirst with ⟨looked, -, unminded⟩ |
        ⟨event, more, -, unminded, looked⟩ | ⟨looked, -, -⟩ | ⟨looked, -⟩
      · simp only [listen, looked]
        exact ih cancelled (later unminded)
      · simp only [listen, looked]
        exact (ih (c := { c with queue := more }) cancelled (later unminded)).imp
          (List.mem_cons_of_mem _) (List.mem_cons_of_mem _)
      · simp only [listen, looked]
        exact .inl List.mem_cons_self
      · simp only [listen, looked]
        exact .inr List.mem_cons_self
    | _ =>
      refine ih (c := c.undergo _) (isCancelled_undergo _ cancelled) ?_
      simpa using minds

end Channel

namespace Session

theorem serveAll_keys (s : Session) (events : List KeyEvent) :
    (s.serveAll (events.map .key)).2 = s.handleAll events := by
  induction events generalizing s with
  | nil => rfl
  | cons event rest ih => exact ih _

theorem handleAll_settings (s : Session) (events : List KeyEvent) :
    (s.handleAll events).settings = s.settings := by
  induction events generalizing s with
  | nil => rfl
  | cons event rest ih => exact (ih _).trans (s.handle_settings event)

theorem run_events (s : Session) (events : List KeyEvent) {ending : List Wake}
    (ends : ∀ t : Session, t.run ending = (0, t.reset)) :
    s.run (events.map .event ++ ending) =
      ((s.serveAll (events.map .key)).1.reduceOption.length, (s.handleAll events).reset) := by
  induction events generalizing s with
  | nil => exact ends s
  | cons event rest ih =>
    have later := ih (s.handle event).2
    rw [List.map_cons, List.cons_append, run, List.map_cons, serveAll_cons]
    simp only [later]
    cases answer : (s.handle event).1 <;> simp [serve, answer, List.reduceOption, handleAll]

theorem exists_events (wakes : List Wake) :
    ∃ (events : List KeyEvent) (ending : List Wake), wakes = events.map .event ++ ending ∧
      ∀ t : Session, t.run ending = (0, t.reset) := by
  induction wakes with
  | nil => exact ⟨[], [], rfl, fun t => rfl⟩
  | cons wake rest ih =>
    cases wake with
    | event event =>
      obtain ⟨events, ending, rfl, ends⟩ := ih
      exact ⟨event :: events, ending, rfl, ends⟩
    | closed => exact ⟨[], .closed :: rest, rfl, fun t => rfl⟩
    | cancelled => exact ⟨[], .cancelled :: rest, rfl, fun t => rfl⟩

theorem run_fresh (settings : Settings) (pieces : List String) (wakes : List Wake) :
    let later := ({ start settings with pieces } : Session).run wakes
    later.1 = ((start settings).run wakes).1 ∧
      later.2.pieces = pieces ++ ((start settings).run wakes).2.pieces := by
  obtain ⟨events, ending, rfl, ends⟩ := exists_events wakes
  have same := serveAll_pieces (start settings) pieces (events.map .key)
  have inserted := serveAll_inserts (start settings) (events.map .key)
  rw [run_events _ events ends, run_events _ events ends, same]
  refine ⟨rfl, ?_⟩
  rw [← serveAll_keys, ← serveAll_keys, same]
  dsimp only [reset]
  rw [inserted]
  rfl

/-- Whatever events are queued and sent, whenever the channel closes or the session is cancelled and
    whatever chance decides: the session handles the first of the events in their order, and all of
    them if the channel closes on it; what it inserts and counts is what they are answered with. It
    keeps no note, so it goes on like a session that starts. And it does stop: when the channel is
    closed, at the latest after one look more than there are events, and when it is cancelled, at
    the first look that minds it. -/
theorem queued_events_handled_in_order (s : Session) (c : Channel) (happenings : List Happening) :
    let (wakes, left) := c.listen happenings
    let (inserted, after) := s.run wakes
    (∃ (handled : List KeyEvent) (ending : List Wake),
      c.outlook happenings = handled ++ left.queue ∧
      wakes = handled.map .event ++ ending ∧
      (ending = [] ∨ ending = [.cancelled] ∧ left.isCancelled = true ∨
        ending = [.closed] ∧ left.isClosed = true ∧ c.outlook happenings = handled) ∧
      let answers := (s.serveAll (handled.map .key)).1.reduceOption
      after = (s.handleAll handled).reset ∧
      after.pieces = s.pieces ++ answers ∧ inserted = answers.length) ∧
    after.chord = .empty ∧ after.settings = s.settings ∧
    (∀ later, (after.run later).1 = ((start s.settings).run later).1 ∧
      (after.run later).2.pieces =
        after.pieces ++ ((start s.settings).run later).2.pieces) ∧
    (∀ early late, happenings = early ++ .closed :: late →
      (c.outlook early).length < late.countP Happening.isLook → Stopped wakes) ∧
    (∀ early late, happenings = early ++ .cancelled :: late →
      .look true ∈ late → Stopped wakes) := by
  obtain ⟨handled, ending, wakes, taken, stops⟩ := c.listen_spec happenings
  have ends (t : Session) : t.run ending = (0, t.reset) := by
    rcases stops with rfl | ⟨rfl, -⟩ | ⟨rfl, -⟩ <;> rfl
  have ran := s.run_events handled ends
  rw [← wakes] at ran
  have settings : (s.handleAll handled).settings = s.settings := s.handleAll_settings handled
  have pieces := serveAll_inserts s (handled.map .key)
  rw [serveAll_keys] at pieces
  simp only [ran]
  refine ⟨⟨handled, ending, taken, wakes, ?_, rfl, pieces, rfl⟩, rfl, settings, fun later => ?_,
    ?_, ?_⟩
  · rcases stops with none | ⟨ended, closed, queue⟩ | stopped
    · exact .inl none
    · exact .inr (.inr ⟨ended, closed, by rw [taken, queue, List.append_nil]⟩)
    · exact .inr (.inl stopped)
  · rw [← settings]
    exact run_fresh _ _ later
  · rintro early late rfl looks
    obtain ⟨before, _, -, outlook, -⟩ := c.listen_spec early
    rw [outlook, List.length_append] at looks
    have closed : Stopped (((c.listen early).2.undergo .closed).listen late).1 :=
      Channel.stopped_of_closed rfl (Nat.lt_of_le_of_lt (Nat.le_add_left _ _) looks)
    exact c.stopped_of_later early closed
  · rintro early late rfl minds
    have cancelled : Stopped (((c.listen early).2.undergo .cancelled).listen late).1 :=
      Channel.stopped_of_cancelled rfl minds
    exact c.stopped_of_later early cancelled

end Session

end ScoreDesk.Keyboard
