import HexFilter.Proofs.Still

/-! Reports on a transfer are made for somebody who watches it. The transfer
itself goes the same way whether they are made or not. -/
namespace HexFilter

/-- Without tracing no report is made. -/
theorem notices_eq_nil {settings : Settings} (hTrace : settings.trace = false) {channel : Channel}
    {clock : Clock} {result : Except Failure Summary} {session : Session}
    (hRun : transfer settings channel clock = (result, session)) :
    session.transfer.notices = [] := by
  have hLoud := transfer_still true hRun
  have hMute := transfer_still false hRun
  -- These settings call for the same transfer, whether its reports are wanted or not.
  rw [hTrace, Bool.false_and] at hLoud hMute
  have hStill : session.still true = session.still false :=
    congrArg Prod.snd (hLoud.symm.trans hMute)
  have hNotices : session.transfer.notices.map Notice.still = [] :=
    congrArg (fun s => s.transfer.notices) hStill
  exact List.map_eq_nil_iff.mp hNotices

/-- With and without tracing a transfer makes the same calls, and the sink
accepts the same bytes. It fails with the same error, or ends with the same
summary but for the values of the clock. This is so for all settings, refused
ones included. Without tracing nothing is printed. -/
theorem tracing_only_observes (mode : Mode) (chunkSize : Nat) (source : Source) (sink : Sink)
    (clock clock' : Clock) :
    let (traced, tracing) := transfer { mode, chunkSize, trace := true } { source, sink } clock
    let (plain, silent) := transfer { mode, chunkSize, trace := false } { source, sink } clock'
    silent.channel.log = tracing.channel.log ∧
    silent.channel.accepted = tracing.channel.accepted ∧
    plain.map Summary.still = traced.map Summary.still ∧
    silent.transfer.report = "" := by
  rcases hTraced : transfer { mode, chunkSize, trace := true } { source, sink } clock with
    ⟨traced, tracing⟩
  rcases hPlain : transfer { mode, chunkSize, trace := false } { source, sink } clock' with
    ⟨plain, silent⟩
  have hTracing := transfer_still false hTraced
  have hSilent := transfer_still false hPlain
  have hSame : (plain.map Summary.still, silent.still false) =
      (traced.map Summary.still, tracing.still false) := hSilent.symm.trans hTracing
  have hChannel : silent.channel = tracing.channel :=
    congrArg (fun run => run.2.channel) hSame
  dsimp only
  refine ⟨by rw [hChannel], by rw [hChannel], congrArg Prod.fst hSame, ?_⟩
  rw [Transfer.report, Transfer.reportIn, notices_eq_nil rfl hPlain]
  rfl

end HexFilter
