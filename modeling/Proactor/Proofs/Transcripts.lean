import Proactor.Proofs.Batching

/-!
# Transcripts

The transcript of a loop that is given its events one by one lists what has driven it, each entry
with what was asked of the system and with what the caller was told. `Path.transcript` reads such a
transcript off any history, and `Transcript.unique` says that the inputs and the answers of the
system determine all of it.
-/

namespace Proactor

open EventLoop

variable {σ α : Type}

/-! ## Answers that have been given -/

/-- Whatever the answers were, there is an oracle that gives them. -/
theorem exists_oracle (exchanges : List (Exchange σ)) :
    ∃ oracle : Oracle σ, Answered oracle [] exchanges := by
  classical
  let oracle : Oracle σ := fun before request =>
    if h : ∃ answer rest, exchanges = before ++ ⟨request, answer⟩ :: rest then h.choose
    else request.granted
  have hall : ∀ rest before, exchanges = before ++ rest → Answered oracle before rest := by
    intro rest
    induction rest with
    | nil => exact fun _ _ => trivial
    | cons exchange rest ih =>
        intro before heq
        obtain ⟨request, answer⟩ := exchange
        have hexists : ∃ answer rest, exchanges = before ++ ⟨request, answer⟩ :: rest :=
          ⟨answer, rest, heq⟩
        refine ⟨?_, ih _ (by rw [heq, List.append_assoc]; rfl)⟩
        have hchosen : oracle before request = hexists.choose := dif_pos hexists
        obtain ⟨others, hothers⟩ := hexists.choose_spec
        have hsame := List.append_cancel_left (heq.symm.trans hothers)
        rw [hchosen]
        exact eq_of_heq (Exchange.mk.inj (List.cons.inj hsame).1).2
  exact ⟨oracle, hall exchanges [] rfl⟩

/-- What has been asked and answered tells where a program ends. -/
theorem Program.Runs.unique_of_append {program : Program σ α}
    {first second rest more : List (Exchange σ)} {outcome other : Outcome α}
    (h : program.Runs first outcome) (hother : program.Runs second other)
    (happend : second ++ more = first ++ rest) : second = first ∧ other = outcome := by
  obtain ⟨oracle, hanswered⟩ := exists_oracle (first ++ rest)
  have hfirst := (answered_append.mp hanswered).1
  rw [← happend] at hanswered
  exact h.unique hother hfirst (answered_append.mp hanswered).1

namespace Lane

variable {setup : Setup} {lane next last other : Lane σ}

/-! ## Entries -/

/-- What has driven a lane, what has been asked of the system then, and what the caller of a
submission has been told. -/
structure Entry (σ : Type) where
  input : Input σ
  exchanges : List (Exchange σ)
  result : Option (Except ReactorError (Option (Operation σ)))

/-- What has been asked in a transcript. -/
def asked (entries : List (Entry σ)) : List (Exchange σ) :=
  entries.flatMap Entry.exchanges

/-- What has been asked for the first entry comes first. -/
@[simp]
theorem asked_cons (entry : Entry σ) (entries : List (Entry σ)) :
    asked (entry :: entries) = entry.exchanges ++ asked entries :=
  List.flatMap_cons

/-- What has been asked in two parts is what was asked in the first and then in the second. -/
theorem asked_append (first second : List (Entry σ)) :
    asked (first ++ second) = asked first ++ asked second :=
  List.flatMap_append

/-- Someone submits an operation. -/
def Input.isSubmission : Input σ → Bool
  | submitted _ _ _ => true
  | _ => false

/-- What a lane whose loop never waits does with an input, and what a caller is told. -/
inductive Does (setup : Setup) (lane : Lane σ) : Entry σ → Lane σ → Prop where
  | submit {exchanges : List (Exchange σ)} {result : Except ReactorError (Option (Operation σ))}
      {side : Side σ} {busy : Bool} (hbusy : lane.stage.isBusy = busy) (operation : Operation σ)
      (policy : OverlapPolicy)
      (hsubmit : (lane.side.submit operation policy).Returns exchanges (result, side)) :
      Does setup lane ⟨.submitted operation policy busy, exchanges, some result⟩ { lane with side }
  | other {input : Input σ} {exchanges : List (Exchange σ)} {next : Lane σ}
      (htakes : Takes setup lane input exchanges next) (hother : input.isSubmission = false) :
      Does setup lane ⟨input, exchanges, none⟩ next

/-- What a lane does for an entry is what it does with its input. -/
theorem Does.takes {entry : Entry σ} (h : Does setup lane entry next) :
    Takes setup lane entry.input entry.exchanges next := by
  cases h with
  | submit hbusy operation policy hsubmit => exact .submit hbusy operation policy hsubmit
  | other htakes => exact htakes

/-- How many events it has room for makes no difference to such a lane. -/
theorem Does.congr {wider : Setup} {entry : Entry σ} (h : Does wider lane entry next)
    (hdirection : wider.direction = setup.direction)
    (hdelivery : wider.delivery = setup.delivery) : Does setup lane entry next := by
  cases h with
  | submit hbusy operation policy hsubmit => exact .submit hbusy operation policy hsubmit
  | other htakes hother => exact .other (htakes.congr hdirection hdelivery) hother

/-- An oracle leaves such a lane one way to take an input. -/
theorem Does.unique {oracle : Oracle σ} {before : List (Exchange σ)} {entry again : Entry σ}
    (h : Does setup lane entry next) (hother : Does setup lane again other)
    (hinput : again.input = entry.input) (hanswered : Answered oracle before entry.exchanges)
    (hothers : Answered oracle before again.exchanges) : again = entry ∧ other = next := by
  cases h with
  | submit _ _ _ hsubmit =>
      cases hother with
      | submit _ _ _ hagain =>
          cases hinput
          obtain ⟨rfl, hsame⟩ := hsubmit.unique hagain hanswered hothers
          cases hsame
          exact ⟨rfl, rfl⟩
      | other _ hnot =>
          cases hinput
          cases hnot
  | other htakes hnot =>
      cases hother with
      | submit =>
          cases hinput
          cases hnot
      | other hagain =>
          cases hinput
          obtain ⟨rfl, rfl⟩ := htakes.unique hagain hanswered hothers
          exact ⟨rfl, rfl⟩

/-! ## Transcripts -/

/-- A lane whose loop is given one event after the other and never waits, from some point on. The
first entry comes first. -/
inductive Transcript (setup : Setup) : Lane σ → List (Entry σ) → Lane σ → Prop where
  | nil (lane : Lane σ) : Transcript setup lane [] lane
  | cons {lane next last : Lane σ} {entry : Entry σ} {entries : List (Entry σ)}
      (hdoes : Does setup lane entry next) (h : Transcript setup next entries last) :
      Transcript setup lane (entry :: entries) last

/-- Two transcripts one of which starts where the other one ends are one transcript. -/
theorem Transcript.append {entries more : List (Entry σ)} (h : Transcript setup lane entries next)
    (hmore : Transcript setup next more last) : Transcript setup lane (entries ++ more) last := by
  induction h with
  | nil => exact hmore
  | cons hdoes _ ih => exact .cons hdoes (ih hmore)

/-- One more entry makes a transcript longer at its end. -/
theorem Transcript.snoc {entries : List (Entry σ)} {entry : Entry σ}
    (h : Transcript setup lane entries next) (hdoes : Does setup next entry last) :
    Transcript setup lane (entries ++ [entry]) last :=
  h.append (.cons hdoes (.nil last))

/-- A transcript does not depend on how many events the loop has room for. -/
theorem Transcript.congr {wider : Setup} {entries : List (Entry σ)}
    (h : Transcript wider lane entries last) (hdirection : wider.direction = setup.direction)
    (hdelivery : wider.delivery = setup.delivery) : Transcript setup lane entries last := by
  induction h with
  | nil lane => exact .nil lane
  | cons hdoes _ ih => exact .cons (hdoes.congr hdirection hdelivery) ih

/-- What a transcript lists has driven the lane. -/
theorem Transcript.plain {start : Side σ} {inputs : List (Input σ)} {calls : List (Exchange σ)}
    {entries : List (Entry σ)} (h : Transcript setup lane entries last)
    (hplain : Plain setup start inputs calls lane) :
    Plain setup start ((entries.map Entry.input).reverse ++ inputs) (calls ++ asked entries)
      last := by
  induction h generalizing inputs calls with
  | nil =>
      rw [show calls ++ asked [] = calls from List.append_nil calls]
      exact hplain
  | cons hdoes _ ih =>
      have hlater := ih (hplain.take hdoes.takes)
      rw [List.append_assoc] at hlater
      rw [List.map_cons, List.reverse_cons, List.append_assoc, asked_cons]
      exact hlater

/-- The inputs and the answers of the system determine a transcript. -/
theorem Transcript.unique {oracle : Oracle σ} {before : List (Exchange σ)}
    {entries others : List (Entry σ)} (h : Transcript setup lane entries last)
    (hother : Transcript setup lane others other)
    (hinputs : others.map Entry.input = entries.map Entry.input)
    (hanswered : Answered oracle before (asked entries))
    (hothers : Answered oracle before (asked others)) : others = entries ∧ other = last := by
  induction h generalizing before others with
  | nil =>
      obtain rfl := List.map_eq_nil_iff.mp hinputs
      cases hother
      exact ⟨rfl, rfl⟩
  | cons hdoes _ ih =>
      cases hother with
      | nil => cases hinputs
      | cons hagain hrest =>
          obtain ⟨hinput, hlater⟩ := List.cons.inj hinputs
          rw [asked_cons] at hanswered hothers
          obtain ⟨hfirst, hlast⟩ := answered_append.mp hanswered
          obtain ⟨hone, htwo⟩ := answered_append.mp hothers
          obtain ⟨rfl, rfl⟩ := hdoes.unique hagain hinput hfirst hone
          obtain ⟨rfl, rfl⟩ := ih hrest hlater hlast htwo
          exact ⟨rfl, rfl⟩

/-! ## The transcript of a history -/

/-- What a history comes to for a loop that is given its events one by one. -/
def transcript : List (Event σ) → List (Entry σ)
  | [] => []
  | .submitted operation policy exchanges result :: history =>
      transcript history ++
        [⟨.submitted operation policy (stageAfter history).isBusy, exchanges, some result⟩]
  | .closed exchanges :: history =>
      transcript history ++ [⟨.closed (stageAfter history).isBusy, exchanges, none⟩]
  | .moved before exchanges after :: history =>
      transcript history ++ (Event.moved before exchanges after).drive.map fun input =>
        ⟨input, (Event.moved before exchanges after).calls, none⟩

/-- A move takes at most one input, and none that is a submission. -/
theorem Event.drive_cases (before after : Lane σ) (exchanges : List (Exchange σ)) :
    (moved before exchanges after).drive = [] ∨
      ∃ input, (moved before exchanges after).drive = [input] ∧ input.isSubmission = false := by
  obtain ⟨side, stage⟩ := before
  obtain ⟨left, last⟩ := after
  cases stage with
  | starting | waiting =>
      cases last with
      | ended ending => exact .inr ⟨_, rfl, rfl⟩
      | _ => exact .inl rfl
  | handling batch =>
      cases batch with
      | nil => exact .inl rfl
      | cons => exact .inr ⟨_, rfl, rfl⟩
  | ended => exact .inl rfl
  | draining | attempting | settling | announcing | delivering => exact .inr ⟨_, rfl, rfl⟩

/-- A transcript lists what has driven the loop. -/
theorem inputs_transcript (history : List (Event σ)) :
    (transcript history).map Entry.input = (inputs history).reverse := by
  induction history with
  | nil => rfl
  | cons event history ih =>
      cases event with
      | submitted | closed =>
          rw [transcript, inputs, List.map_append, ih, List.reverse_cons]
          rfl
      | moved before exchanges after =>
          rw [transcript, inputs, List.map_append, ih, List.reverse_append]
          congr 1
          rcases Event.drive_cases before after exchanges with hdrive | ⟨input, hdrive, -⟩
          all_goals rw [hdrive]; rfl

variable {side : Side σ} {history : List (Event σ)} {exchanges : List (Exchange σ)}

/-- What has been asked at the last event comes after what was asked before. -/
theorem calls_cons (event : Event σ) (history : List (Event σ)) :
    calls (event :: history) = calls history ++ event.calls :=
  collect_cons _ _ _

/-- What a loop does with what drives it to a move. -/
theorem Path.drive_takes {start : Side σ}
    (h : Path setup ⟨start, .starting⟩ history lane) (hmoves : Moves setup lane exchanges next) :
    ((Event.moved lane exchanges next).drive = [] ∧ (Event.moved lane exchanges next).calls = [] ∧
        next.plain = lane.plain) ∨
      ∃ input, (Event.moved lane exchanges next).drive = [input] ∧ input.isSubmission = false ∧
        Takes setup lane.plain input (Event.moved lane exchanges next).calls next.plain := by
  have hbefore := h.plain
  have hafter := (h.move hmoves).plain
  rw [calls_cons] at hafter
  -- both are driven by the same history, so an oracle takes them to the same point before the move
  obtain ⟨oracle, hanswered⟩ :=
    exists_oracle (calls history ++ (Event.moved lane exchanges next).calls)
  have hfirst := (answered_append.mp hanswered).1
  rcases Event.drive_cases lane next exchanges with hdrive | ⟨input, hdrive, hinput⟩
  · rw [inputs, hdrive, List.nil_append] at hafter
    obtain ⟨hcalls, hsame⟩ := hbefore.unique hafter hfirst hanswered
    exact .inl ⟨hdrive, List.append_right_eq_self.mp hcalls, hsame⟩
  · refine .inr ⟨input, hdrive, hinput, ?_⟩
    rw [inputs, hdrive] at hafter
    generalize hasked : calls history ++ (Event.moved lane exchanges next).calls = asked at hafter
    cases hafter with
    | take hearlier htakes =>
        rw [hasked] at hanswered
        obtain ⟨rfl, rfl⟩ := hbefore.unique hearlier hfirst (answered_append.mp hanswered).1
        obtain rfl := List.append_cancel_left hasked
        exact htakes

/-- Every loop leaves the transcript of a loop that is given its events one by one. -/
theorem Path.transcript (h : Path setup ⟨side, .starting⟩ history lane) :
    Transcript setup ⟨side, .waiting⟩ (transcript history) lane.plain := by
  induction h with
  | here => exact .nil _
  | submit hpath operation policy hsubmit ih =>
      rw [Lane.transcript, ← hpath.stage_eq rfl]
      exact ih.snoc (.submit (Stage.isBusy_plain _) operation policy hsubmit)
  | close hpath hclose ih =>
      rw [Lane.transcript, ← hpath.stage_eq rfl]
      exact ih.snoc (.other (.close (Stage.isBusy_plain _) hclose) rfl)
  | move hpath hmoves ih =>
      rw [Lane.transcript]
      rcases hpath.drive_takes hmoves with ⟨hdrive, -, hsame⟩ | ⟨input, hdrive, hinput, htakes⟩
      · rw [hdrive, hsame, List.map_nil, List.append_nil]
        exact ih
      · rw [hdrive]
        exact ih.snoc (.other htakes hinput)

/-- All that a loop asks for, other than for events, is in its transcript. -/
theorem Path.asked_transcript (h : Path setup ⟨side, .starting⟩ history lane) :
    asked (Lane.transcript history) = calls history := by
  induction h with
  | here => rfl
  | submit hpath operation policy hsubmit ih =>
      rw [Lane.transcript, asked_append, ih, calls_cons, Event.calls_eq
        (.submitted operation policy _ _) (Side.submit_asksNoWait.request hsubmit)]
      exact congrArg _ (List.append_nil _)
  | close hpath hclose ih =>
      rw [Lane.transcript, asked_append, ih, calls_cons, Event.calls_eq (.closed _)
        (Side.close_asksNoWait.request hclose)]
      exact congrArg _ (List.append_nil _)
  | move hpath hmoves ih =>
      rw [Lane.transcript, asked_append, ih, calls_cons]
      rcases hpath.drive_takes hmoves with ⟨hdrive, hcalls, -⟩ | ⟨input, hdrive, -, -⟩
      · rw [hdrive, hcalls]
        rfl
      · rw [hdrive]
        exact congrArg _ (List.append_nil _)

end Lane

end Proactor
