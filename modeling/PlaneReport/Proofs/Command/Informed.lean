import PlaneReport.Command.Arguments
import PlaneReport.Proofs.Result

/-!
# Command lines with and without `--info`

Wherever `--info` is accepted, it changes nothing but the level of the log.  It judges the option that
is pending, so the scan that met it may be ahead of the one that did not: `Follows` is kept by every
further argument, and once both have judged their options they are alike.  Main statement:
`parse_informed`.
-/

namespace PlaneReport
namespace Arguments

namespace Scan

variable {scan scan' after after' : Scan}

/-! ## Steps that succeed -/

theorem settle_of_pending (h : scan.pending = none) : scan.settle = .ok scan := by
  rw [settle, h]

theorem take_eq_ok {parameter : Parameter} {value : String}
    (h : scan.take parameter value = .ok after) :
    after.scope = scan.scope ∧ after.raised = scan.raised ∧ after.pending = scan.pending := by
  cases parameter with
  | config =>
    simp only [take] at h
    split at h
    · cases h
    · split at h <;> cases h
      exact ⟨rfl, rfl, rfl⟩
  | precision =>
    simp only [take] at h
    split at h
    · cases h
    · split at h <;> cases h
      exact ⟨rfl, rfl, rfl⟩

theorem settle_eq_ok (h : scan.settle = .ok after) :
    after.scope = scan.scope ∧ after.pending = none ∧ scan.isWaiting = false := by
  unfold settle at h
  split at h
  · next hpending =>
    cases h
    exact ⟨rfl, hpending, by rw [isWaiting, hpending]⟩
  · cases h
  · next hpending =>
    obtain ⟨hscope, -, hsettled⟩ := take_eq_ok h
    exact ⟨hscope, hsettled, by rw [isWaiting, hpending]⟩

theorem raise_eq_ok {flag : Flag} (h : scan.raise flag = .ok after) :
    ∃ settled, scan.settle = .ok settled ∧
      after = { settled with raised := flag :: settled.raised } := by
  obtain ⟨settled, hsettled, h⟩ := bind_eq_ok.mp h
  refine ⟨settled, mapError_eq_ok.mp hsettled, ?_⟩
  split at h
  · cases h
  · split at h
    · cases h
    · split at h <;> cases h
      rfl

/-! ## Scans that are alike -/

/-- Scans that are the same but for whether `--info` was met. -/
structure Alike (scan scan' : Scan) : Prop where
  scope : scan'.scope = scan.scope
  config : scan'.config = scan.config
  precision : scan'.precision = scan.precision
  pending : scan'.pending = scan.pending
  raised : ∀ flag, flag ≠ .info → scan'.raised.contains flag = scan.raised.contains flag

theorem Alike.refl (scan : Scan) : scan.Alike scan := ⟨rfl, rfl, rfl, rfl, fun _ _ => rfl⟩

theorem Alike.take {parameter : Parameter} {value : String} (h : scan.Alike scan')
    (htake : scan.take parameter value = .ok after)
    (htake' : scan'.take parameter value = .ok after') : after.Alike after' := by
  cases parameter with
  | config =>
    simp only [Scan.take, h.config] at htake htake'
    split at htake
    · cases htake
    · next hnew =>
      rw [if_neg hnew] at htake'
      split at htake
      · cases htake
      · next hvalue =>
        rw [if_neg hvalue] at htake'
        cases htake
        cases htake'
        exact ⟨h.scope, rfl, h.precision, h.pending, h.raised⟩
  | precision =>
    simp only [Scan.take, h.precision] at htake htake'
    split at htake
    · cases htake
    · next hnew =>
      rw [if_neg hnew] at htake'
      cases hcount : countOfText value with
      | error cause =>
        rw [hcount] at htake
        cases htake
      | ok places =>
        rw [hcount] at htake htake'
        cases htake
        cases htake'
        exact ⟨h.scope, h.config, rfl, h.pending, h.raised⟩

theorem Alike.settle (h : scan.Alike scan') (hsettle : scan.settle = .ok after)
    (hsettle' : scan'.settle = .ok after') : after.Alike after' := by
  unfold Scan.settle at hsettle hsettle'
  rw [h.pending] at hsettle'
  split at hsettle
  · next hpending =>
    rw [hpending] at hsettle'
    cases hsettle
    cases hsettle'
    exact h
  · cases hsettle
  · next parameter value hpending =>
    rw [hpending] at hsettle'
    have hstripped : Alike { scan with pending := none } { scan' with pending := none } :=
      ⟨h.scope, h.config, h.precision, rfl, h.raised⟩
    exact hstripped.take hsettle hsettle'

/-- The second scan is alike to the first, or to what the first is once its option is judged. -/
def Follows (scan scan' : Scan) : Prop :=
  scan.Alike scan' ∨ ∃ settled, scan.settle = .ok settled ∧ settled.Alike scan'

namespace Follows

theorem settle (h : scan.Follows scan') (hsettle : scan.settle = .ok after)
    (hsettle' : scan'.settle = .ok after') : after.Alike after' := by
  obtain h | ⟨settled, hsettled, h⟩ := h
  · exact h.settle hsettle hsettle'
  · cases hsettled.symm.trans hsettle
    have hpending := h.pending.trans (settle_eq_ok hsettled).2.1
    cases (settle_of_pending hpending).symm.trans hsettle'
    exact h

theorem scope (h : scan.Follows scan') : scan'.scope = scan.scope := by
  obtain h | ⟨settled, hsettled, h⟩ := h
  · exact h.scope
  · exact h.scope.trans (settle_eq_ok hsettled).1

theorem isWaiting (h : scan.Follows scan') : scan'.isWaiting = scan.isWaiting := by
  obtain h | ⟨settled, hsettled, h⟩ := h
  · rw [Scan.isWaiting, h.pending, Scan.isWaiting]
  · obtain ⟨-, hpending, hwaiting⟩ := settle_eq_ok hsettled
    rw [hwaiting, Scan.isWaiting, h.pending, hpending]

theorem raise {flag : Flag} (h : scan.Follows scan') (hraise : scan.raise flag = .ok after)
    (hraise' : scan'.raise flag = .ok after') : after.Alike after' := by
  obtain ⟨settled, hsettled, rfl⟩ := raise_eq_ok hraise
  obtain ⟨settled', hsettled', rfl⟩ := raise_eq_ok hraise'
  have halike := h.settle hsettled hsettled'
  refine ⟨halike.scope, halike.config, halike.precision, halike.pending, fun other hother => ?_⟩
  rw [List.contains_cons, List.contains_cons, halike.raised other hother]

theorem meet {parameter : Parameter} {value? : Option String} (h : scan.Follows scan')
    (hmeet : scan.meet parameter value? = .ok after)
    (hmeet' : scan'.meet parameter value? = .ok after') : after.Alike after' := by
  obtain ⟨settled, hsettled, hmeet⟩ := bind_eq_ok.mp hmeet
  obtain ⟨settled', hsettled', hmeet'⟩ := bind_eq_ok.mp hmeet'
  have halike := h.settle (mapError_eq_ok.mp hsettled) (mapError_eq_ok.mp hsettled')
  cases value? with
  | some value => exact halike.take (mapError_eq_ok.mp hmeet) (mapError_eq_ok.mp hmeet')
  | none =>
    cases hmeet
    cases hmeet'
    exact ⟨halike.scope, halike.config, halike.precision, rfl, halike.raised⟩

theorem readNamed {name : String} {value? : Option String} (h : scan.Follows scan')
    (hread : scan.readNamed name value? = .ok after)
    (hread' : scan'.readNamed name value? = .ok after') : after.Alike after' := by
  unfold Scan.readNamed at hread hread'
  rw [h.scope] at hread'
  generalize scan.scope.flags.find? _ = flag? at hread hread'
  generalize scan.scope.parameters.find? _ = parameter? at hread hread'
  cases flag? with
  | some flag =>
    cases value? with
    | some value => cases hread
    | none => exact h.raise hread hread'
  | none =>
    cases parameter? with
    | some parameter => exact h.meet hread hread'
    | none => cases hread

theorem readLetters {letters : List Char} (h : scan.Follows scan')
    (hread : scan.readLetters letters = .ok after)
    (hread' : scan'.readLetters letters = .ok after') : after.Follows after' := by
  induction letters generalizing scan scan' with
  | nil =>
    cases hread
    cases hread'
    exact h
  | cons c rest ih =>
    unfold Scan.readLetters at hread hread'
    rw [h.scope] at hread'
    generalize scan.scope.flags.find? _ = flag? at hread hread'
    generalize scan.scope.parameters.find? _ = parameter? at hread hread'
    cases flag? with
    | some flag =>
      obtain ⟨next, hraise, hread⟩ := bind_eq_ok.mp hread
      obtain ⟨next', hraise', hread'⟩ := bind_eq_ok.mp hread'
      exact ih (.inl (h.raise hraise hraise')) hread hread'
    | none =>
      cases parameter? with
      | none => cases hread
      | some parameter =>
        left
        dsimp only at hread hread'
        split at hread
        · exact h.meet hread hread'
        · exact h.meet hread hread'
        · next hmore hattached =>
          split at hread'
          · exact absurd rfl hmore
          · exact absurd rfl (hattached _)
          · exact h.meet hread hread'

end Follows

/-! ## One argument -/

/-- What an argument looks like. -/
inductive Shape where
  | dashes
  | named (name : String) (value? : Option String)
  | lettered (letters : List Char)
  | plain

def Shape.of (text : String) : Shape :=
  match text.toList with
  | ['-', '-'] => .dashes
  | '-' :: '-' :: name =>
    let (name, value) := name.span fun c => c != '='
    .named (String.ofList name) <|
      match value with
      | [] => none
      | _ :: value => some (String.ofList value)
  | '-' :: c :: letters => .lettered (c :: letters)
  | _ => .plain

/-- The scope that an argument opens, if it is no value. -/
def opened? (scan : Scan) (text : String) : Option Scope :=
  if scan.isWaiting then none else scan.scope.command? text

/-- Takes the value that an option waits for. -/
def receive (scan : Scan) (text : String) : Except Stop Scan :=
  match scan.pending with
  | some (parameter, none) => .ok { scan with pending := some (parameter, some text) }
  | _ => .error (stray scan.scope false text)

/-- Reads an option, or the value of one. -/
def advance (scan : Scan) (text : String) : Except Stop Scan :=
  match Shape.of text with
  | .named name value? => scan.readNamed name value?
  | .lettered letters => scan.readLetters letters
  | _ => scan.receive text

namespace Follows

theorem opened? (h : scan.Follows scan') (text : String) :
    scan'.opened? text = scan.opened? text := by
  rw [Scan.opened?, Scan.opened?, h.isWaiting, h.scope]

/-- A scan that waits for a value has no option to judge. -/
theorem receive {text : String} (h : scan.Follows scan') (hread : scan.receive text = .ok after)
    (hread' : scan'.receive text = .ok after') : after.Alike after' := by
  unfold Scan.receive at hread hread'
  split at hread
  · next parameter hpending =>
    obtain h | ⟨settled, hsettled, -⟩ := h
    · rw [h.pending, hpending] at hread'
      cases hread
      cases hread'
      exact ⟨h.scope, h.config, h.precision, rfl, h.raised⟩
    · have hwaiting := (settle_eq_ok hsettled).2.2
      rw [Scan.isWaiting, hpending] at hwaiting
      cases hwaiting
  · cases hread

theorem advance {text : String} (h : scan.Follows scan') (hread : scan.advance text = .ok after)
    (hread' : scan'.advance text = .ok after') : after.Follows after' := by
  unfold Scan.advance at hread hread'
  generalize Shape.of text = shape at hread hread'
  cases shape with
  | named name value? => exact .inl (h.readNamed hread hread')
  | lettered letters => exact h.readLetters hread hread'
  | dashes => exact .inl (h.receive hread hread')
  | plain => exact .inl (h.receive hread hread')

end Follows
end Scan

/-! ## Command lines -/

open Scan

variable {scan scan' after after' : Scan} {command? command?' : Option (Scope × List String)}
  {arguments before rest : List String} {text : String}

theorem scanArguments_cons (scan : Scan) (text : String) (rest : List String) :
    scanArguments scan (text :: rest) =
      match scan.opened? text with
      | some scope => .ok (scan, some (scope, rest))
      | none =>
        if scan.scope = .root && text = "help" && !scan.isWaiting then .error (helpOn rest)
        else
          match Shape.of text with
          | .dashes =>
            match rest with
            | [] => .ok (scan, none)
            | next :: _ => .error (stray scan.scope true next)
          | _ => scan.advance text >>= fun scan => scanArguments scan rest := by
  conv => lhs; unfold scanArguments
  rw [Scan.opened?]
  generalize (if scan.isWaiting then none else scan.scope.command? text) = scope?
  cases scope? with
  | some scope => rfl
  | none =>
    dsimp only
    split
    · rfl
    · unfold Scan.advance Shape.of
      generalize text.toList = chars
      split
      · rfl
      · rename_i name named
        cases name with
        | nil => exact absurd rfl named
        | cons c name => rfl
      · simp
      · simp only [receive]
        rcases scan.pending with _ | ⟨parameter, _ | value⟩ <;> rfl

/-- What a successful scan does with its first argument. -/
theorem scanArguments_cons_eq_ok
    (h : scanArguments scan (text :: rest) = .ok (after, command?)) :
    (∃ scope, scan.opened? text = some scope ∧ after = scan ∧ command? = some (scope, rest)) ∨
      scan.opened? text = none ∧
        (Shape.of text = .dashes ∧ rest = [] ∧ after = scan ∧ command? = none ∨
          Shape.of text ≠ .dashes ∧ ∃ next, scan.advance text = .ok next ∧
            scanArguments next rest = .ok (after, command?)) := by
  rw [scanArguments_cons] at h
  cases hopened : scan.opened? text with
  | some scope =>
    rw [hopened] at h
    cases h
    exact .inl ⟨scope, rfl, rfl, rfl⟩
  | none =>
    rw [hopened] at h
    refine .inr ⟨rfl, ?_⟩
    dsimp only at h
    split at h
    · cases h
    · split at h
      · next hdashes =>
        cases rest with
        | nil =>
          cases h
          exact .inl ⟨hdashes, rfl, rfl, rfl⟩
        | cons next rest => cases h
      · next hdashes => exact .inr ⟨hdashes, bind_eq_ok.mp h⟩

/-- What both scans read keeps them together. -/
theorem scanArguments_follows (h : scan.Follows scan')
    (hscan : scanArguments scan arguments = .ok (after, command?))
    (hscan' : scanArguments scan' arguments = .ok (after', command?')) :
    after.Follows after' ∧ command?' = command? := by
  induction arguments generalizing scan scan' with
  | nil =>
    cases hscan
    cases hscan'
    exact ⟨h, rfl⟩
  | cons text rest ih =>
    have hopened := h.opened? text
    obtain ⟨scope, hscope, rfl, rfl⟩ | ⟨hnone, hread⟩ := scanArguments_cons_eq_ok hscan
    · obtain ⟨scope', hscope', rfl, rfl⟩ | ⟨hnone', -⟩ := scanArguments_cons_eq_ok hscan'
      · rw [hscope, hscope'] at hopened
        cases hopened
        exact ⟨h, rfl⟩
      · cases hnone'.symm.trans (hopened.trans hscope)
    · obtain ⟨scope', hscope', -⟩ | ⟨-, hread'⟩ := scanArguments_cons_eq_ok hscan'
      · cases hscope'.symm.trans (hopened.trans hnone)
      · obtain ⟨hdashes, -, rfl, rfl⟩ | ⟨hdashes, next, hnext, hrest⟩ := hread
        · obtain ⟨-, -, rfl, rfl⟩ | ⟨hdashes', -⟩ := hread'
          · exact ⟨h, rfl⟩
          · exact absurd hdashes hdashes'
        · obtain ⟨hdashes', -⟩ | ⟨-, next', hnext', hrest'⟩ := hread'
          · exact absurd hdashes' hdashes
          · exact ih (h.advance hnext hnext') hrest hrest'

/-- `--info` leaves the scan ahead of what it would have been. -/
theorem follows_of_info {result : Scan × Option (Scope × List String)}
    (h : scanArguments scan ("--info" :: rest) = .ok result) :
    ∃ next, scan.Follows next ∧ scanArguments next rest = .ok result := by
  have hcommand : ∀ scope : Scope, scope.command? "--info" = none := by
    intro scope
    cases scope <;> decide
  have hflag : ∀ scope : Scope,
      (scope.flags.find? fun flag => flag.name == "info") = some .info := by
    intro scope
    cases scope <;> decide
  have hshape : Shape.of "--info" = .named "info" none := by
    rfl
  obtain ⟨after, command?⟩ := result
  obtain ⟨scope, hscope, -⟩ | ⟨-, ⟨hdashes, -⟩ | ⟨-, next, hnext, hrest⟩⟩ :=
    scanArguments_cons_eq_ok h
  · rw [opened?, hcommand, ite_self] at hscope
    cases hscope
  · cases hshape.symm.trans hdashes
  · refine ⟨next, .inr ?_, hrest⟩
    rw [advance, hshape] at hnext
    dsimp only at hnext
    rw [readNamed, hflag] at hnext
    obtain ⟨settled, hsettled, rfl⟩ := raise_eq_ok hnext
    refine ⟨settled, hsettled, rfl, rfl, rfl, rfl, fun flag hflag => ?_⟩
    rw [List.contains_cons, beq_false_of_ne hflag, Bool.false_or]

/-- Where `--info` is inserted, either the scans stay together or it is part of what follows the name
of a command. -/
theorem scanArguments_insert
    (hscan : scanArguments scan (before ++ rest) = .ok (after, command?))
    (hscan' : scanArguments scan (before ++ "--info" :: rest) = .ok (after', command?')) :
    after.Follows after' ∧ command?' = command? ∨
      after' = after ∧ ∃ scope inner, command? = some (scope, inner ++ rest) ∧
        command?' = some (scope, inner ++ "--info" :: rest) := by
  induction before generalizing scan with
  | nil =>
    obtain ⟨next, hnext, hrest⟩ := follows_of_info hscan'
    exact .inl (scanArguments_follows hnext hscan hrest)
  | cons text before ih =>
    obtain ⟨scope, hscope, rfl, rfl⟩ | ⟨hnone, hread⟩ := scanArguments_cons_eq_ok hscan
    · obtain ⟨scope', hscope', rfl, rfl⟩ | ⟨hnone', -⟩ := scanArguments_cons_eq_ok hscan'
      · cases hscope.symm.trans hscope'
        exact .inr ⟨rfl, scope, before, rfl, rfl⟩
      · cases hnone'.symm.trans hscope
    · obtain ⟨scope', hscope', -⟩ | ⟨-, hread'⟩ := scanArguments_cons_eq_ok hscan'
      · cases hscope'.symm.trans hnone
      · obtain ⟨-, hend, -⟩ | ⟨hdashes', next', hnext', hrest'⟩ := hread'
        · exact absurd hend (by simp)
        · obtain ⟨hdashes, -⟩ | ⟨-, next, hnext, hrest⟩ := hread
          · exact absurd hdashes hdashes'
          · cases hnext.symm.trans hnext'
            exact ih hrest hrest'

/-- The invocation that the arguments before any command ask for. -/
def alone (root : Scan) : Invocation where
  command := .report none
  config := root.config
  json := root.raised.contains .json
  info := root.raised.contains .info

/-- The invocation that a command asks for, with what follows its name and what comes before. -/
def joined (scope : Scope) (inner root : Scan) : Invocation where
  command :=
    match scope with
    | .init => .initialise (inner.raised.contains .force)
    | .config => .settings
    | _ => .report inner.precision
  config := inner.config.or root.config
  json := inner.raised.contains .json || root.raised.contains .json
  info := inner.raised.contains .info || root.raised.contains .info

theorem alone_of_alike (h : scan.Alike scan') :
    alone scan' = { alone scan with info := (alone scan').info } := by
  have hjson := h.raised .json nofun
  simp only [alone, h.config, hjson]

theorem joined_of_alike {inner inner' : Scan} (scope : Scope) (hinner : inner.Alike inner')
    (hroot : scan.Alike scan') : joined scope inner' scan' =
      { joined scope inner scan with info := (joined scope inner' scan').info } := by
  have hjson := hinner.raised .json nofun
  have hforce := hinner.raised .force nofun
  have hjson' := hroot.raised .json nofun
  simp only [joined, hinner.config, hroot.config, hinner.precision, hjson, hjson', hforce]

theorem parse_eq_ok {invocation : Invocation} (h : parse arguments = .ok invocation) :
    ∃ root command? settled, scanArguments { scope := .root } arguments = .ok (root, command?) ∧
      root.settle = .ok settled ∧
      (command? = none ∧ invocation = alone settled ∨
        ∃ scope rest inner innermost? judged, command? = some (scope, rest) ∧
          scanArguments { scope := scope } rest = .ok (inner, innermost?) ∧
          inner.settle = .ok judged ∧ invocation = joined scope judged settled) := by
  obtain ⟨⟨root, command?⟩, hroot, h⟩ := bind_eq_ok.mp h
  cases command? with
  | none =>
    obtain ⟨settled, hsettled, h⟩ := bind_eq_ok.mp h
    cases h
    exact ⟨root, none, settled, hroot, mapError_eq_ok.mp hsettled, .inl ⟨rfl, rfl⟩⟩
  | some command =>
    obtain ⟨scope, rest⟩ := command
    obtain ⟨⟨inner, innermost?⟩, hinner, h⟩ := bind_eq_ok.mp h
    obtain ⟨judged, hjudged, h⟩ := bind_eq_ok.mp h
    obtain ⟨settled, hsettled, h⟩ := bind_eq_ok.mp h
    cases h
    exact ⟨root, _, settled, hroot, mapError_eq_ok.mp hsettled,
      .inr ⟨scope, rest, inner, innermost?, judged, rfl, hinner, mapError_eq_ok.mp hjudged, rfl⟩⟩

/-- Command lines that ask for a run with `--info` and without it ask for the same one, apart from how
much it logs. -/
theorem parse_insert {invocation invocation' : Invocation}
    (hparse : parse (before ++ rest) = .ok invocation)
    (hparse' : parse (before ++ "--info" :: rest) = .ok invocation') :
    invocation' = { invocation with info := invocation'.info } := by
  obtain ⟨root, command?, settled, hroot, hsettled, hrun⟩ := parse_eq_ok hparse
  obtain ⟨root', command?', settled', hroot', hsettled', hrun'⟩ := parse_eq_ok hparse'
  obtain ⟨hfollows, rfl⟩ | ⟨rfl, scope, behind, rfl, rfl⟩ := scanArguments_insert hroot hroot'
  · have halike := hfollows.settle hsettled hsettled'
    obtain ⟨hnone, rfl⟩ | ⟨scope, behind, inner, _, judged, hsome, hinner, hjudged, rfl⟩ := hrun
    · obtain ⟨-, rfl⟩ | ⟨_, _, _, _, _, hsome', -⟩ := hrun'
      · exact alone_of_alike halike
      · cases hnone.symm.trans hsome'
    · obtain ⟨hnone', -⟩ | ⟨scope', behind', inner', _, judged', hsome', hinner', hjudged', rfl⟩ :=
        hrun'
      · cases hnone'.symm.trans hsome
      · cases hsome.symm.trans hsome'
        cases hinner.symm.trans hinner'
        cases hjudged.symm.trans hjudged'
        exact joined_of_alike scope (.refl judged) halike
  · cases hsettled.symm.trans hsettled'
    obtain ⟨hnone, -⟩ | ⟨_, _, inner, _, judged, hsome, hinner, hjudged, rfl⟩ := hrun
    · cases hnone
    · obtain ⟨hnone', -⟩ | ⟨_, _, inner', _, judged', hsome', hinner', hjudged', rfl⟩ := hrun'
      · cases hnone'
      · cases hsome
        cases hsome'
        refine joined_of_alike scope ?_ (.refl settled)
        obtain ⟨hfollows, -⟩ | ⟨rfl, -⟩ := scanArguments_insert hinner hinner'
        · exact hfollows.settle hjudged hjudged'
        · cases hjudged.symm.trans hjudged'
          exact .refl judged

/-- Command lines of which one may have an `--info` more than the other. -/
def Informed (arguments arguments' : List String) : Prop :=
  ∃ before rest, (arguments = before ++ rest ∨ arguments = before ++ "--info" :: rest) ∧
    (arguments' = before ++ rest ∨ arguments' = before ++ "--info" :: rest)

theorem parse_informed {arguments' : List String} {invocation invocation' : Invocation}
    (harguments : Informed arguments arguments') (hparse : parse arguments = .ok invocation)
    (hparse' : parse arguments' = .ok invocation') :
    invocation' = { invocation with info := invocation'.info } := by
  obtain ⟨before, rest, rfl | rfl, rfl | rfl⟩ := harguments
  · cases hparse.symm.trans hparse'
    rfl
  · exact parse_insert hparse hparse'
  · rw [parse_insert hparse' hparse]
  · cases hparse.symm.trans hparse'
    rfl

end Arguments
end PlaneReport
