import SeriesClient.Export.Csv.CsvSink
import SeriesClient.Export.Recorder
import SeriesClient.Insert
import SeriesClient.Journal.Report
import SeriesClient.Latest
import SeriesClient.Paging.Drain
import SeriesClient.Proofs.Batch.FirstMismatch
import SeriesClient.Proofs.Batch.OrderIndependence
import SeriesClient.Proofs.Batch.RoundTrip
import SeriesClient.Proofs.Batch.Transposed
import SeriesClient.Proofs.Export.Csv.Custody
import SeriesClient.Proofs.Export.Csv.TableText
import SeriesClient.Proofs.Latest.Alignment
import SeriesClient.Proofs.Paging.DamagedRow
import SeriesClient.Proofs.Paging.Drained
import SeriesClient.Proofs.Paging.LastFailure
import SeriesClient.Proofs.Paging.PageBounds
import SeriesClient.Proofs.Paging.SinkProtocol
import SeriesClient.Proofs.Path.Coverage
import SeriesClient.Proofs.Path.Merging
import SeriesClient.Proofs.Reordering
import SeriesClient.Proofs.Summary.PathMajor
import SeriesClient.Proofs.Wire.AppendedValues
import SeriesClient.Proofs.Wire.BulkLongs
import SeriesClient.Proofs.Wire.Canonical
import SeriesClient.Proofs.Wire.MarkedSet
import SeriesClient.Proofs.Wire.ReaderHistory
import SeriesClient.Proofs.Wire.ReusedBuffer
import SeriesClient.Proofs.Wire.RowsAsColumns
import SeriesClient.Proofs.Wire.Truncation
import SeriesClient.Proofs.Wire.ViewedMask
import SeriesClient.Statement
import SeriesClient.Summary
import SeriesClient.Proofs.Calendar
import SeriesClient.Proofs.Export.DateTime
import SeriesClient.Proofs.Journal.PutBack
import SeriesClient.Proofs.Journal.Contents
import SeriesClient.Proofs.Journal.Reopened
import SeriesClient.Proofs.Paging.Deeds
import SeriesClient.Proofs.Journal.Desk
