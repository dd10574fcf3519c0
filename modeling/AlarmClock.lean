import AlarmClock.DateTime
import AlarmClock.Device.Reading
import AlarmClock.Machine
import AlarmClock.Main
import AlarmClock.Proofs.Advance
import AlarmClock.Proofs.ArmedSpans
import AlarmClock.Proofs.Attended
import AlarmClock.Proofs.Callbacks
import AlarmClock.Proofs.CommandLine
import AlarmClock.Proofs.CutShort
import AlarmClock.Proofs.Dates
import AlarmClock.Proofs.DayLists
import AlarmClock.Proofs.Deadline
import AlarmClock.Proofs.Directories
import AlarmClock.Proofs.DueReload
import AlarmClock.Proofs.Entries
import AlarmClock.Proofs.FailedLoad
import AlarmClock.Proofs.FaultyBytes
import AlarmClock.Proofs.LocalOrder
import AlarmClock.Proofs.MirroredRegions
import AlarmClock.Proofs.NextRinging
import AlarmClock.Proofs.OthersEdits
import AlarmClock.Proofs.Overdue
import AlarmClock.Proofs.PlainSlots
import AlarmClock.Proofs.Punctual
import AlarmClock.Proofs.Regions
import AlarmClock.Proofs.Reread
import AlarmClock.Proofs.ResetAlarm
import AlarmClock.Proofs.Resolution
import AlarmClock.Proofs.Retry
import AlarmClock.Proofs.SavedConfig
import AlarmClock.Proofs.Seasons
import AlarmClock.Proofs.SharedBytes
import AlarmClock.Proofs.ShownTimes
import AlarmClock.Proofs.Validity
import AlarmClock.Proofs.Vigil
import AlarmClock.Proofs.WallTime
import AlarmClock.Proofs.ZonedAlert
import AlarmClock.Proofs.ZonedOrder
