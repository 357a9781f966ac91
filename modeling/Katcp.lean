import Katcp.Ktype.Basic
import Katcp.Ktype.Search
import Katcp.Ktype.Ops
import Katcp.Ktype.Shift
import Katcp.Ktype.Registry
import Katcp.Ktype.View
import Katcp.Ktype.Store
import Katcp.Ktype.Step
import Katcp.Ktype.Run
import Katcp.Ktype.Lifecycle
import Katcp.Ktype.Ledger
import Katcp.Ktype.Abstract
import Katcp.Ktype.Commute
import Katcp.Ktype.History
import Katcp.Rpjtag.Io
import Katcp.Rpjtag.Tdi
import Katcp.Rpjtag.Wire
import Katcp.Rpjtag.Read
import Katcp.Rpjtag.Lines
import Katcp.Rpjtag.Wave
import Katcp.Rpjtag.Sessions
