import HexFilter.CommandLine
import HexFilter.Proofs.Chunking
import HexFilter.Proofs.Tracing
import Mathlib.Data.List.Nodup

/-! The program from its arguments to its exit. Of the arguments only one flag
counts, and of the input only its text, however it is handed out. What the
process leaves behind is what the codec makes of that text in memory. -/
namespace HexFilter.CommandLine

/-- The one argument that is not ignored. -/
def decodeArgument : List UInt8 := ['-'.toUInt8, 'r'.toUInt8]

namespace Command

/-- A flag as it stands among the arguments. -/
def argument (short : Char) : List UInt8 := ['-'.toUInt8, short.toUInt8]

/-- The flags that the library adds to a command. -/
def added (c : Command) : List Char :=
  (if c.disableHelpFlag then [] else ['h']) ++ (if c.disableVersionFlag then [] else ['V'])

/-- A command that the library accepts: its flags are letters, no two of them the
same, and none of them one of the library's own. -/
structure Regular (c : Command) : Prop where
  alpha : ∀ short ∈ c.shorts, short.isAlpha
  nodup : c.shorts.Nodup
  own : ∀ short ∈ c.shorts, short ∉ c.added

/-- Letters are ASCII, in either case. -/
theorem val_lt_of_isAlpha {short : Char} (h : short.isAlpha) : short.val.toNat < 128 := by
  rcases (Bool.or_eq_true ..).mp h with hUpper | hLower
  · have hRange : short.val ≥ 'A'.val ∧ short.val ≤ 'Z'.val := of_decide_eq_true hUpper
    exact Nat.lt_of_le_of_lt (UInt32.le_iff_toNat_le.mp hRange.2) (by decide)
  · have hMost := ((Bool.and_eq_true ..).mp hLower).2
    have hRange : short.val ≤ 'z'.val := of_decide_eq_true hMost
    exact Nat.lt_of_le_of_lt (UInt32.le_iff_toNat_le.mp hRange) (by decide)

/-- Letters are told apart by the bytes they are given as. -/
theorem argument_injective {short other : Char} (hShort : short.isAlpha) (hOther : other.isAlpha)
    (h : argument short = argument other) : short = other := by
  have hShortLt := val_lt_of_isAlpha hShort
  have hOtherLt := val_lt_of_isAlpha hOther
  have hByte : short.toUInt8 = other.toUInt8 := List.head_eq_of_cons_eq (List.tail_eq_of_cons_eq h)
  have hNumber : short.val.toNat % 256 = other.val.toNat % 256 := congrArg UInt8.toNat hByte
  apply Char.ext
  apply UInt32.toNat_inj.mp
  omega

end Command

theorem regular_command : command.Regular where
  alpha := List.forall_mem_singleton.mpr rfl
  nodup := List.nodup_singleton _
  own := List.forall_mem_singleton.mpr List.not_mem_nil

/-- What is documented of the library. Behind the name of the program it is given flags
of the command and nothing else, and it tells which of them stand there. A flag that
stands there again is accepted if the command lets its flags be given again. Nothing is
said of other arguments. -/
def ReadsFlags {ε : Type} (parser : Parser ε) : Prop :=
  ∀ (command : Command) (name : List UInt8) (given : List Char), command.Regular →
    (∀ short ∈ given, short ∈ command.shorts) → (command.argsOverrideSelf ∨ given.Nodup) →
    ∃ set, parser command (name :: given.map Command.argument) = .ok set ∧
      ∀ short ∈ command.shorts, short ∈ set ↔ short ∈ given

/-- A parser that does what is documented, and refuses all that nothing is said of. -/
def plainParser : Parser String := fun command tokens =>
  if (tokens.tail.all fun token => command.shorts.any fun short =>
      token = Command.argument short) ∧ (command.argsOverrideSelf ∨ tokens.tail.Nodup) then
    .ok (command.shorts.filter fun short => Command.argument short ∈ tokens.tail)
  else .error "unexpected argument"

/-- The plain parser is one that reads flags as it should. -/
theorem readsFlags_plainParser : ReadsFlags plainParser := by
  intro command name given regular hGiven hAgain
  have injective : ∀ short ∈ command.shorts, ∀ other ∈ command.shorts,
      Command.argument short = Command.argument other → short = other :=
    fun short hShort other hOther =>
      Command.argument_injective (regular.alpha short hShort) (regular.alpha other hOther)
  have hKnown : (given.map Command.argument).all fun token => command.shorts.any fun short =>
      token = Command.argument short := by
    simp only [List.all_map, List.all_eq_true, Function.comp_apply, List.any_eq_true,
      decide_eq_true_eq]
    exact fun short hShort => ⟨short, hGiven short hShort, rfl⟩
  have hAgain : command.argsOverrideSelf ∨ (given.map Command.argument).Nodup :=
    hAgain.imp_right fun nodup => List.Nodup.map_on (fun short hShort other hOther =>
      injective short (hGiven short hShort) other (hGiven other hOther)) nodup
  refine ⟨_, if_pos ⟨hKnown, hAgain⟩, fun short hShort => ?_⟩
  rw [List.mem_filter, decide_eq_true_iff, List.tail_cons, List.mem_map]
  constructor
  · rintro ⟨-, other, hOther, hSame⟩
    exact injective other (hGiven other hOther) short hShort hSame ▸ hOther
  · exact fun hMem => ⟨hShort, short, hMem, rfl⟩

section Arguments

variable (arguments : List (List UInt8))

/-- The only argument that the command recognizes is the one that asks for
decoding. -/
theorem isRecognized_eq : isRecognized = (· == decodeArgument) := by
  have hFlag : decodeFlag.toUTF8.toList = decodeArgument := by decide +kernel
  funext argument
  simp only [isRecognized, recognizedFlags, List.any_cons, List.any_nil, Bool.or_false, hFlag,
    beq_eq_decide]

/-- Decoding is what is asked for exactly if that argument stands behind the program's
name. -/
theorem parse_eq : parse arguments = { reverse := decodeArgument ∈ arguments.drop 1 } := by
  rw [parse, isRecognized_eq, List.any_beq', List.contains_eq_mem]

/-- Whatever else was among the arguments, only the flag is left of them. -/
theorem tokens_eq : tokens arguments = arguments.headD programName.toUTF8.toList ::
    List.replicate ((arguments.drop 1).count decodeArgument) decodeArgument := by
  rw [tokens, isRecognized_eq, List.filter_beq]

/-- A parser for the flag is never given anything that it might refuse. -/
theorem ReadsFlags.readOptions {ε : Type} {parser : Parser ε} (reads : ReadsFlags parser) :
    readOptions parser arguments = .ok { reverse := decodeArgument ∈ arguments.drop 1 } := by
  let given := List.replicate ((arguments.drop 1).count decodeArgument) 'r'
  obtain ⟨set, hSet, hMem⟩ := reads command (arguments.headD programName.toUTF8.toList) given
    regular_command
    (fun short hShort => List.eq_of_mem_replicate hShort ▸ List.mem_singleton_self _)
    (.inl rfl)
  have hGiven : given.map Command.argument =
      List.replicate ((arguments.drop 1).count decodeArgument) decodeArgument :=
    List.map_replicate
  have hFlag : 'r' ∈ set ↔ decodeArgument ∈ arguments.drop 1 := by
    rw [hMem 'r' (List.mem_singleton_self _), List.mem_replicate, Ne, List.count_eq_zero, not_not,
      and_iff_left rfl]
  rw [CommandLine.readOptions, tokens_eq, ← hGiven, hSet]
  simp only [Except.map, Options.ofFlags, List.contains_eq_mem, hFlag]

/-- Whatever parser reads flags, the process does not get stuck on its arguments. -/
theorem ReadsFlags.launch {ε : Type} {parser : Parser ε} (reads : ReadsFlags parser)
    (channel : Channel) (clock : Clock) :
    launch parser arguments channel clock = .ok (execute arguments channel clock) := by
  rw [CommandLine.launch, reads.readOptions, ← parse_eq]
  rfl

/-- Of all arguments only the one that asks for decoding matters. -/
theorem execute_eq_run (channel : Channel) (clock : Clock) :
    execute arguments channel clock =
      run { reverse := decodeArgument ∈ arguments.drop 1 } channel clock := by
  rw [execute, parse_eq]

end Arguments

section Report

theorem causeLines_pair (outer inner : String) :
    causeLines [outer, inner] = ["    0: " ++ outer, "    1: " ++ inner] := by
  have hOuter : "    " ++ (0 : Nat).repr ++ ": " = "    0: " := by decide
  have hInner : "    " ++ (1 : Nat).repr ++ ": " = "    1: " := by decide
  simp only [causeLines, List.zipIdx, List.map_cons, List.map_nil, toString, Nat.zero_add,
    hOuter, hInner]

/-- What is printed on a bad digit: its message comes up twice, as the cause of the
failed transfer and on its own. -/
theorem report_codec (error : InvalidDigit) : report .decode (.codec error) =
    "Error: decoding stdin failed\n\nCaused by:\n    0: codec error: " ++ error.message ++
      "\n    1: " ++ error.message ++ "\n" := by
  have hCauses : causes (.codec error) = ["codec error: " ++ error.message, error.message] := rfl
  rw [report, hCauses, causeLines_pair]
  simp only [List.cons_append, List.nil_append, String.intercalate_cons_cons,
    String.intercalate_singleton, activity, toString]
  apply String.toList_injective
  simp

end Report

section Run

/-- Nothing is traced, so the complaint is all that there is on standard error. -/
theorem run_of_transfer {options : Options} {channel : Channel} {clock : Clock}
    {result : Except Failure Summary} {session : Session}
    (hRun : transfer options.settings channel clock = (result, session)) :
    run options channel clock =
      { code := exitCode result
        stdout := session.channel.emerged
        stderr := complaint options.mode result } := by
  have hNotices : session.transfer.notices = [] := notices_eq_nil rfl hRun
  simp [run, hRun, Transfer.report, Transfer.reportIn, hNotices]

/-- What was written to a sink that is read has come out of it. -/
theorem emerged_of_read {settings : Settings} {channel : Channel} {clock : Clock}
    {result : Except Failure Summary} {session : Session}
    (hRun : transfer settings channel clock = (result, session))
    (hRead : channel.sink.unread = none) :
    session.channel.emerged = session.channel.accepted := by
  rw [Channel.emerged, transfer_sink_unread hRun, hRead]
  rfl

variable {text : List UInt8} {source : Source} (hSource : source.HandsOut text) {sink : Sink}
  (hSink : sink.Willing) (clock : Clock)

theorem validate_settings (options : Options) : options.settings.validate = .ok () :=
  Settings.validate_eq_ok_iff.mpr ⟨(by decide : 1 ≤ 8192), (by decide : 8192 ≤ 1048576)⟩

include hSource hSink

/-- All comes out that is to come out of the text, and the result tells the rest. -/
theorem run_eq (options : Options) : run options { source, sink } clock =
    let result := (transfer options.settings { source, sink } clock).1
    { code := exitCode result
      stdout := options.mode.output text
      stderr := complaint options.mode result } := by
  rcases hRun : transfer options.settings { source, sink } clock with ⟨result, session⟩
  have hOut : session.channel.accepted = options.mode.output text :=
    transfer_accepts (validate_settings options) hSource hSink hRun
  rw [run_of_transfer hRun, emerged_of_read hRun hSink.unread_eq, hOut]

/-- There is no text that cannot be encoded. -/
theorem run_encode : run {} { source, sink } clock =
    { code := 0, stdout := encode text, stderr := "" } := by
  rw [run_eq hSource hSink]
  rcases hRun : transfer ({} : Options).settings { source, sink } clock with ⟨result, session⟩
  obtain ⟨summary, rfl, -⟩ | ⟨-, -, hMode, -⟩ :=
    transfer_settles (validate_settings {}) hSource hSink hRun
  · rfl
  · cases hMode

/-- What a decoding process comes to, in terms of the whole text. -/
theorem run_decode : run { reverse := true } { source, sink } clock =
    match (Decoder.decoded text).fault with
    | none => { code := 0, stdout := Text.readable text, stderr := "" }
    | some error =>
        { code := 1, stdout := Text.readable text, stderr := report .decode (.codec error) } := by
  rw [run_eq hSource hSink]
  rcases hRun : transfer ({ reverse := true } : Options).settings { source, sink } clock with
    ⟨result, session⟩
  obtain ⟨summary, rfl, hText, complete⟩ | ⟨error, rfl, -, hFault, -⟩ :=
    transfer_settles (validate_settings { reverse := true }) hSource hSink hRun
  · have hFault : (Decoder.decoded text).fault = none := hText ▸ complete.fault_eq_none
    rw [hFault]
    rfl
  · rw [hFault]
    rfl

end Run

/-- The exit of the process for all arguments and for every input, with an output
that takes all. The arguments are always read, and the flag counts at any place
but that of the program's name. Without it the input is encoded. With it the
input is decoded, up to its first bad digit if there is one, and then the report
gives the causes of the failure. -/
theorem launch_matches_codec {ε : Type} {parser : Parser ε} (reads : ReadsFlags parser)
    (arguments : List (List UInt8)) {text : List UInt8} {source : Source}
    (hSource : source.HandsOut text) {sink : Sink} (hSink : sink.Willing) (clock : Clock) :
    let exit := execute arguments { source, sink } clock
    readOptions parser arguments = .ok { reverse := decodeArgument ∈ arguments.drop 1 } ∧
    launch parser arguments { source, sink } clock = .ok exit ∧
    (decodeArgument ∉ arguments.drop 1 →
      exit = { code := 0, stdout := encode text, stderr := "" }) ∧
    (decodeArgument ∈ arguments.drop 1 →
      (∀ bytes, decode text = .ok bytes → exit = { code := 0, stdout := bytes, stderr := "" }) ∧
      (∀ error, decode text = .error error →
        exit.code = 1 ∧ decode (text.take error.offset) = .ok exit.stdout ∧
          exit.stderr = "Error: decoding stdin failed\n\nCaused by:\n    0: codec error: " ++
            error.message ++ "\n    1: " ++ error.message ++ "\n")) ∧
    readOptions parser [] = .ok {} ∧ ∀ name, readOptions parser [name] = .ok {} := by
  intro exit
  have hExit : exit = run { reverse := decodeArgument ∈ arguments.drop 1 } { source, sink } clock :=
    execute_eq_run arguments _ clock
  refine ⟨reads.readOptions arguments, reads.launch arguments _ clock, fun hFlag => ?_,
    fun hFlag => ?_, reads.readOptions [], fun name => reads.readOptions [name]⟩
  · rw [hExit, decide_eq_false hFlag]
    exact run_encode hSource hSink clock
  · rw [hExit, decide_eq_true hFlag, run_decode hSource hSink]
    cases hFault : (Decoder.decoded text).fault with
    | none =>
        rw [Decoder.decode_of_fault_none hFault]
        refine ⟨?_, ?_⟩
        · rintro bytes ⟨⟩
          rfl
        · intro error hError
          cases hError
    | some error =>
        rw [Decoder.decode_of_fault_some hFault]
        refine ⟨?_, ?_⟩
        · intro bytes hBytes
          cases hBytes
        · rintro error ⟨⟩
          exact ⟨rfl, (Decoder.decode_take_offset hFault).2, report_codec error⟩

/-- The flag stands twice among arguments that its parser would refuse, and one of
these is no text. -/
theorem launch_matches_codec_among_others :
    let arguments : List (List UInt8) :=
      [decodeArgument, [255, 254], [45, 114], [45, 104], [45, 114]]
    let text : List UInt8 := [52, 97, 10, 52, 103]
    let source : Source := [.data [52, 97, 10] (some 2), .data [52, 103] none]
    (ReadsFlags plainParser ∧ source.HandsOut text ∧ Sink.Willing {}) ∧
    plainParser command arguments = .error "unexpected argument" ∧
    (decodeArgument ∈ arguments.drop 1 ∧ ∃ exit,
      launch plainParser arguments { source } {} = .ok exit ∧ exit.code = 1 ∧ exit.stdout = [74] ∧
        exit.stderr = "Error: decoding stdin failed\n\nCaused by:\n" ++
          "    0: codec error: invalid hex digit 0x67 ('g') at offset 4\n" ++
          "    1: invalid hex digit 0x67 ('g') at offset 4\n") ∧
    (decodeArgument ∉ (arguments.take 2).drop 1 ∧
      launch plainParser (arguments.take 2) { source } {} =
        .ok { code := 0, stdout := encode text, stderr := "" }) := by
  intro arguments text source
  have hSource : source.HandsOut text :=
    .data (.inr (by decide)) (.data (.inr (by decide)) .nothing)
  have hSink : Sink.Willing {} := ⟨by simp, by simp, rfl⟩
  have hFlag : decodeArgument ∈ arguments.drop 1 := by decide
  have hNone : decodeArgument ∉ (arguments.take 2).drop 1 := by decide
  refine ⟨⟨readsFlags_plainParser, hSource, hSink⟩, by decide, ⟨hFlag, ?_⟩, hNone, ?_⟩
  · obtain ⟨-, hLaunch, -, hDecode, -⟩ :=
      launch_matches_codec readsFlags_plainParser arguments hSource hSink {}
    obtain ⟨hCode, hOut, hReport⟩ := (hDecode hFlag).2 ⟨103, 4⟩ (by decide)
    have hPart : decode (text.take 4) = .ok [74] := by decide
    have hMessage : InvalidDigit.message ⟨103, 4⟩ = "invalid hex digit 0x67 ('g') at offset 4" := by
      decide +kernel
    rw [hMessage] at hReport
    exact ⟨_, hLaunch, hCode, Except.ok.inj (hOut.symm.trans hPart),
      hReport.trans (by decide +kernel)⟩
  · obtain ⟨-, hLaunch, hEncode, -⟩ :=
      launch_matches_codec readsFlags_plainParser (arguments.take 2) hSource hSink {}
    exact hLaunch.trans (congrArg Except.ok (hEncode hNone))

end HexFilter.CommandLine
